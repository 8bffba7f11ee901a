import ModAudioStream.AudioDelivery

namespace ModAudioStream

/-- A frame that carries an item of the queue. -/
def Frame.isData (f : Frame) : Bool := f.opcode == 0x1 || f.opcode == 0x2

/-- What the items of one kind carry. -/
def dataOf (isBinary : Bool) (items : List SendItem) : List (List UInt8) :=
  (items.filter (·.isBinary == isBinary)).map SendItem.data

theorem dataOf_append (isBinary : Bool) (items more : List SendItem) :
    dataOf isBinary (items ++ more) = dataOf isBinary items ++ dataOf isBinary more := by
  rw [dataOf, List.filter_append, List.map_append]
  rfl

theorem filter_isData_frames (items : List SendItem) :
    (items.map SendItem.frame).filter Frame.isData = items.map SendItem.frame := by
  refine List.filter_eq_self.mpr fun f hf => ?_
  obtain ⟨item, -, rfl⟩ := List.mem_map.mp hf
  cases hkind : item.isBinary with
  | true => simp [Frame.isData, SendItem.frame, hkind]
  | false => simp [Frame.isData, SendItem.frame, hkind]

namespace SendSide

/-- The item that a step puts into the queue, if any. -/
def accepts (s : SendSide) : SendAct → Option SendItem
  | .sendBinary state data => sendBinary state data s.queue.length
  | .sendMessage text => sendMessage text s.queue.length
  | .drain | .pong _ | .ping | .close => none

/-- While the connection is open, and every size is a `size_t`. -/
def Allowed : SendAct → Prop
  | .sendBinary _ data => FitsFrame data
  | .sendMessage text => FitsFrame text
  | .drain => True
  | .pong payload => FitsFrame payload
  | .ping => True
  | .close => False

/-- The data frames on the wire and then the queue are the items accepted, in order. -/
structure InOrder (s : SendSide) (items : List SendItem) : Prop where
  opened : 0 ≤ s.wire.sockfd
  queue : ∀ item ∈ s.queue, item.data.isEmpty = false ∧ FitsFrame item.data
  room : s.queue.length ≤ maxSendQueue
  carries : ∃ frames, s.wire.Carries frames ∧
    frames.filter Frame.isData ++ s.queue.map SendItem.frame = items.map SendItem.frame

theorem inOrder_start {sockfd : Int} (hopen : 0 ≤ sockfd) (results : Nat → WriteResult)
    (masks : Nat → MaskKey) : (start sockfd results masks).InOrder [] :=
  { opened := hopen
    queue := fun _ hitem => absurd hitem List.not_mem_nil
    room := Nat.zero_le _
    carries := ⟨[], ⟨[], rfl, rfl⟩, rfl⟩ }

theorem InOrder.enqueue {s : SendSide} {items : List SendItem} (h : s.InOrder items)
    {item : Option SendItem} (hroom : ∀ x ∈ item, s.queue.length < maxSendQueue)
    (hitem : ∀ x ∈ item, x.data.isEmpty = false ∧ FitsFrame x.data) :
    ({ s with queue := s.queue ++ item.toList } : SendSide).InOrder (items ++ item.toList) := by
  cases item with
  | none => simpa using h
  | some item =>
    obtain ⟨frames, hcarries, horder⟩ := h.carries
    exact {
      opened := h.opened
      queue := by
        intro x hx
        rcases List.mem_append.mp hx with hx | hx
        · exact h.queue x hx
        · rw [List.mem_singleton.mp hx]
          exact hitem item rfl
      room := by
        have hlt := hroom item rfl
        simp only [Option.toList_some, List.length_append, List.length_singleton]
        omega
      carries := by
        refine ⟨frames, hcarries, ?_⟩
        rw [Option.toList_some, List.map_append, List.map_append, ← List.append_assoc, horder] }

theorem InOrder.drain {s : SendSide} {items : List SendItem} (h : s.InOrder items)
    (hw : (s.step .drain).wire.Unfailed) : (s.step .drain).InOrder items := by
  obtain ⟨frames, hcarries, horder⟩ := h.carries
  obtain ⟨hnil, hcarries'⟩ := drainSendQueue_carries hcarries h.opened h.queue hw
  have hqueue : (s.step .drain).queue = [] := hnil
  exact {
    opened := (drainLoop_log s.queue 0 s.wire).2 ▸ h.opened
    queue := by
      rw [hqueue]
      exact fun _ hitem => absurd hitem List.not_mem_nil
    room := by
      rw [hqueue]
      exact Nat.zero_le _
    carries := by
      refine ⟨_, hcarries', ?_⟩
      rw [hqueue, List.map_nil, List.append_nil, List.filter_append, filter_isData_frames]
      exact horder }

theorem InOrder.control {s : SendSide} {items : List SendItem} (h : s.InOrder items)
    {opcode : UInt8} (hop : opcode = 0x9 ∨ opcode = 0xA) {payload : List UInt8}
    (hfits : FitsFrame payload) (hw : (sendFrame opcode payload s.wire).2.Unfailed) :
    ({ s with wire := (sendFrame opcode payload s.wire).2 } : SendSide).InOrder items := by
  obtain ⟨frames, hcarries, horder⟩ := h.carries
  obtain ⟨-, hcarries'⟩ := sendFrame_carries hcarries h.opened (Or.inr (Or.inr hop)) hfits hw
  exact {
    opened := (sendFrame_log opcode payload s.wire).2 ▸ h.opened
    queue := h.queue
    room := h.room
    carries := by
      refine ⟨_, hcarries', ?_⟩
      have hcontrol : [(⟨true, opcode, payload⟩ : Frame)].filter Frame.isData = [] := by
        rcases hop with rfl | rfl
        · rfl
        · rfl
      rw [List.filter_append, hcontrol, List.append_nil]
      exact horder }

theorem room_of_sendBinary {state : State} {data : List UInt8} {queued : Nat} {item : SendItem}
    (h : item ∈ sendBinary state data queued) :
    queued < maxSendQueue ∧ item = ⟨data, true⟩ := by
  unfold sendBinary at h
  split at h
  · simp at h
  · split at h
    · simp at h
    · obtain ⟨hroom, hitem⟩ := unlessFull_eq_some.mp h
      exact ⟨hroom, hitem.symm⟩

theorem room_of_sendMessage {text : List UInt8} {queued : Nat} {item : SendItem}
    (h : item ∈ sendMessage text queued) :
    queued < maxSendQueue ∧ item = ⟨text, false⟩ := by
  unfold sendMessage at h
  split at h
  · simp at h
  · obtain ⟨hroom, hitem⟩ := unlessFull_eq_some.mp h
    exact ⟨hroom, hitem.symm⟩

theorem InOrder.step {s : SendSide} {items : List SendItem} (h : s.InOrder items) {a : SendAct}
    (ha : Allowed a) (hw : (s.step a).wire.Unfailed) :
    (s.step a).InOrder (items ++ (s.accepts a).toList) := by
  cases a with
  | sendBinary state data =>
    refine h.enqueue (fun x hx => (room_of_sendBinary hx).1) fun x hx => ?_
    refine ⟨sendBinary_nonempty hx, ?_⟩
    rw [(room_of_sendBinary hx).2]
    exact ha
  | sendMessage text =>
    refine h.enqueue (fun x hx => (room_of_sendMessage hx).1) fun x hx => ?_
    refine ⟨sendMessage_nonempty hx, ?_⟩
    rw [(room_of_sendMessage hx).2]
    exact ha
  | drain => simpa [accepts] using h.drain hw
  | pong payload => simpa [accepts, SendSide.step] using h.control (Or.inr rfl) ha hw
  | ping => simpa [accepts, SendSide.step] using h.control (Or.inl rfl) (by simp [FitsFrame]) hw
  | close => exact absurd ha id

end SendSide

namespace Forwarding

variable {ρ : Type*} {channels : Nat} {speex : CaptureSpeex ρ channels}

/-- Without a resampler what is in hand is some of the frames, each one whole and in order. -/
structure WholeFrames (s : Forwarding ρ) (frames : List (List UInt8)) : Prop where
  direct : s.tap.resampler = none
  unbuffered : s.tap.rtpPackets = 1 → s.tap.sbuffer = []
  parts : ∃ out held buffered : List (List UInt8), (out ++ held ++ buffered).Sublist frames ∧
    s.sent.flatten = out.flatten ∧ s.pending.flatten = held.flatten ∧
    s.tap.sbuffer = buffered.flatten

theorem WholeFrames.flush {s : Forwarding ρ} {frames : List (List UInt8)}
    (h : s.WholeFrames frames) : s.flush.WholeFrames frames := by
  rcases s.flush_cases with hf | hf
  · rw [hf]
    exact h
  · obtain ⟨out, held, buffered, hsub, hout, hheld, hbuffered⟩ := h.parts
    rw [hf]
    exact {
      direct := h.direct
      unbuffered := fun _ => rfl
      parts := by
        refine ⟨out, held ++ buffered, [], ?_, hout, ?_, rfl⟩
        · rw [List.append_nil, ← List.append_assoc]
          exact hsub
        · rw [List.flatten_append, List.flatten_append, hheld, hbuffered]
          simp }

/-- A frame that is skipped or has no room. -/
theorem WholeFrames.skip {s : Forwarding ρ} {frames : List (List UInt8)}
    (h : s.WholeFrames frames) (data : List UInt8) : s.WholeFrames (frames ++ [data]) := by
  obtain ⟨out, held, buffered, hsub, hparts⟩ := h.parts
  exact {
    direct := h.direct
    unbuffered := h.unbuffered
    parts := ⟨out, held, buffered, hsub.trans (List.sublist_append_left _ _), hparts⟩ }

theorem WholeFrames.readDirect {s : Forwarding ρ} {frames : List (List UInt8)}
    (h : s.WholeFrames frames) (f : CapturedFrame) :
    (s.readDirect f).WholeFrames (frames ++ [f.data]) := by
  obtain ⟨out, held, buffered, hsub, hout, hheld, hbuffered⟩ := h.parts
  unfold Forwarding.readDirect
  split
  · exact h.skip f.data
  · split
    next hrtp =>
      exact {
        direct := h.direct
        unbuffered := h.unbuffered
        parts := by
          refine ⟨out, held ++ [f.data], [], ?_, hout, ?_, h.unbuffered hrtp⟩
          · rw [List.append_nil, ← List.append_assoc]
            exact ((List.sublist_append_left _ _).trans hsub).append (List.Sublist.refl _)
          · rw [List.flatten_append, List.flatten_append, hheld] }
    next hrtp =>
      by_cases hfits : f.data.length ≤ s.tap.freespace
      · rw [Capture.bufferWrite_fits hfits]
        refine WholeFrames.flush {
          direct := h.direct
          unbuffered := fun h1 => absurd h1 hrtp
          parts := ⟨out, held, buffered ++ [f.data], ?_, hout, hheld, ?_⟩ }
        · rw [← List.append_assoc]
          exact hsub.append (List.Sublist.refl _)
        · rw [List.flatten_append, ← hbuffered, List.flatten_singleton]
      · have hfull : s.tap.bufferWrite f.data = s.tap := if_neg hfits
        rw [hfull]
        exact (h.skip f.data).flush

theorem WholeFrames.read {s : Forwarding ρ} {frames : List (List UInt8)}
    (h : s.WholeFrames frames) (f : CapturedFrame) :
    (s.read speex f).WholeFrames (frames ++ [f.data]) := by
  rw [read_direct h.direct]
  exact @WholeFrames.readDirect ρ { s with captured := s.captured ++ f.data } frames
    ⟨h.direct, h.unbuffered, h.parts⟩ f

theorem WholeFrames.foldl {s : Forwarding ρ} {frames : List (List UInt8)}
    (h : s.WholeFrames frames) (more : List CapturedFrame) :
    (more.foldl (Forwarding.read speex) s).WholeFrames (frames ++ more.map (·.data)) := by
  induction more generalizing s frames with
  | nil => simpa using h
  | cons f more ih =>
    have hnext := @ih (s.read speex f) (frames ++ [f.data]) (h.read f)
    rw [List.append_assoc] at hnext
    exact hnext

/-- The chunks of a call are handed on together or dropped together. -/
theorem WholeFrames.send {s : Forwarding ρ} {frames : List (List UInt8)}
    (h : s.WholeFrames frames) (connected : Bool) : (s.send connected).WholeFrames frames := by
  obtain ⟨out, held, buffered, hsub, hout, hheld, hbuffered⟩ := h.parts
  cases connected with
  | true =>
    exact {
      direct := h.direct
      unbuffered := h.unbuffered
      parts := by
        refine ⟨out ++ held, [], buffered, ?_, ?_, rfl, hbuffered⟩
        · rw [List.append_nil]
          exact hsub
        · simp [Forwarding.send, List.flatten_filter_not_isEmpty, hout, hheld] }
  | false =>
    exact {
      direct := h.direct
      unbuffered := h.unbuffered
      parts := by
        refine ⟨out, [], buffered, ?_, ?_, rfl, hbuffered⟩
        · rw [List.append_nil]
          exact ((List.sublist_append_left out held).append (List.Sublist.refl _)).trans hsub
        · simp [Forwarding.send, hout] }

theorem wholeFrames_start (rtpPackets capacity : Nat) :
    (start rtpPackets capacity none : Forwarding ρ).WholeFrames [] :=
  ⟨rfl, fun _ => rfl, [], [], [], List.Sublist.refl _, rfl, rfl, rfl⟩

/-- With a resampler what is in hand is some of what it has put out, in order. -/
structure InProduced (s : Forwarding ρ) : Prop where
  resampled : s.tap.resampler.isSome
  unbuffered : s.tap.rtpPackets = 1 → s.tap.sbuffer = []
  kept : s.kept.Sublist s.produced

theorem InProduced.read {s : Forwarding ρ} (h : s.InProduced) {f : CapturedFrame}
    (hf : f.Whole channels) : (s.read speex f).InProduced := by
  obtain ⟨r, hr⟩ := Option.isSome_iff_exists.mp h.resampled
  obtain ⟨hres, hbuf, ⟨out, hkept, hproduced⟩, -⟩ := @resamples_readResampled ρ channels speex
    { s with captured := s.captured ++ f.data } r hr h.unbuffered f hf
  rw [read_resampled hr]
  exact {
    resampled := hres
    unbuffered := hbuf
    kept := by
      rw [hkept, hproduced]
      exact h.kept.append (List.Sublist.refl out) }

/-- Without the chunks of the call it is less. -/
theorem InProduced.handed_sublist {s : Forwarding ρ} (h : s.InProduced) :
    (s.sent.flatten ++ s.tap.sbuffer).Sublist s.produced :=
  ((List.sublist_append_left _ s.pending.flatten).append (List.Sublist.refl _)).trans h.kept

theorem InProduced.send {s : Forwarding ρ} (h : s.InProduced) (connected : Bool) :
    (s.send connected).InProduced := by
  refine ⟨h.resampled, h.unbuffered, ?_⟩
  cases connected with
  | true =>
    rw [kept_send]
    exact h.kept
  | false =>
    have hkept : (s.send false).kept = s.sent.flatten ++ s.tap.sbuffer := by
      simp [Forwarding.kept, Forwarding.send]
    rw [hkept]
    exact h.handed_sublist

theorem InProduced.foldl {s : Forwarding ρ} (h : s.InProduced) {frames : List CapturedFrame}
    (hwhole : ∀ f ∈ frames, f.Whole channels) :
    (frames.foldl (Forwarding.read speex) s).InProduced := by
  refine ((run_foldl (Forwarding.read speex) s frames).and_labels hwhole).invariant ?_ h
  rintro s f t hs ⟨hf, rfl⟩
  exact hs.read hf

theorem InProduced.streamFrame {s : Forwarding ρ} (h : s.InProduced) {call : StreamFrameCall}
    (hwhole : ∀ f ∈ call.frames, f.Whole channels) : (s.streamFrame speex call).InProduced := by
  unfold Forwarding.streamFrame
  split
  · exact (h.foldl hwhole).send call.connected
  · exact h

theorem inProduced_start (rtpPackets capacity : Nat) {resampler : Option ρ}
    (h : resampler.isSome) : (start rtpPackets capacity resampler).InProduced :=
  ⟨h, fun _ => rfl, List.Sublist.refl _⟩

end Forwarding

/-- The frames that a call reads. -/
def StreamFrameCall.packets (call : StreamFrameCall) : List (List UInt8) :=
  if call.reads then call.frames.map (·.data) else []

theorem Forwarding.WholeFrames.streamFrame {ρ : Type*} {channels : Nat}
    {speex : CaptureSpeex ρ channels} {s : Forwarding ρ} {frames : List (List UInt8)}
    (h : s.WholeFrames frames) (call : StreamFrameCall) :
    (s.streamFrame speex call).WholeFrames (frames ++ call.packets) := by
  unfold Forwarding.streamFrame StreamFrameCall.packets
  split
  · exact (h.foldl call.frames).send call.connected
  · rw [List.append_nil]
    exact h

def DeliveryAct.packets : DeliveryAct → List (List UInt8)
  | .streamFrame call => call.packets
  | _ => []

namespace Delivery

variable {ρ : Type*} {channels : Nat} {speex : CaptureSpeex ρ channels}

/-- What a step does to the queue and the wire, if anything. -/
def sideAct (s : Delivery ρ) : DeliveryAct → Option SendAct
  | .streamFrame _ => none
  | .writeBinary asked found =>
    if asked = .opened then s.handed.head?.map (.sendBinary found) else none
  | .sendMessage text => some (.sendMessage text)
  | .drain => some .drain
  | .pong payload => some (.pong payload)
  | .ping => some .ping

/-- The item that a step puts into the queue: a chunk for which the client is open, or a text,
while the queue has room. -/
def accepts (s : Delivery ρ) (a : DeliveryAct) : Option SendItem :=
  (s.sideAct a).bind s.side.accepts

/-- The items that the steps of a run put into the queue. -/
def accepted (speex : CaptureSpeex ρ channels) (s : Delivery ρ) : List DeliveryAct → List SendItem
  | [] => []
  | a :: as => (s.accepts a).toList ++ (s.step speex a).accepted speex as

theorem side_step (s : Delivery ρ) (a : DeliveryAct) :
    (s.step speex a).side = ((s.sideAct a).map s.side.step).getD s.side := by
  cases a with
  | writeBinary asked found =>
    cases hhanded : s.handed with
    | nil => simp [step, sideAct, hhanded]
    | cons chunk rest =>
      by_cases hasked : asked = .opened
      · simp [step, sideAct, hhanded, hasked]
      · simp [step, sideAct, hhanded, hasked]
  | streamFrame call => rfl
  | sendMessage text => rfl
  | drain => rfl
  | pong payload => rfl
  | ping => rfl

theorem allowed_sideAct {s : Delivery ρ} {a : DeliveryAct} (he : s.Enabled channels a)
    {act : SendAct} (hact : act ∈ s.sideAct a) : SendSide.Allowed act := by
  cases a with
  | writeBinary asked found =>
    by_cases hasked : asked = .opened
    · rw [sideAct, if_pos hasked] at hact
      obtain ⟨chunk, hchunk, rfl⟩ := Option.map_eq_some_iff.mp hact
      exact he.2 chunk hchunk
    · rw [sideAct, if_neg hasked] at hact
      exact absurd hact (Option.not_mem_none _)
  | streamFrame call => exact absurd hact (Option.not_mem_none _)
  | sendMessage text =>
    obtain rfl := Option.some.inj hact
    exact he
  | drain =>
    obtain rfl := Option.some.inj hact
    trivial
  | pong payload =>
    obtain rfl := Option.some.inj hact
    exact he
  | ping =>
    obtain rfl := Option.some.inj hact
    trivial

/-- What holds between the frames on the wire, the queue, and what the callers have handed in,
whatever is lost on the way. -/
structure KeepsOrder (s : Delivery ρ) (items : List SendItem) : Prop where
  side : s.side.InOrder items
  texts : (dataOf false items).Sublist s.texts
  chunks : (dataOf true items ++ s.handed).Sublist s.media.sent

theorem inOrder_side_step {s : Delivery ρ} {items : List SendItem} (h : s.side.InOrder items)
    {a : DeliveryAct} (he : s.Enabled channels a) (hw : (s.step speex a).side.wire.Unfailed) :
    (s.step speex a).side.InOrder (items ++ (s.accepts a).toList) := by
  rw [side_step] at hw ⊢
  unfold accepts
  cases hact : s.sideAct a with
  | none => simpa using h
  | some act =>
    rw [hact] at hw
    exact h.step (allowed_sideAct he hact) hw

theorem accepts_writeBinary {s : Delivery ρ} {asked found : State} {chunk : List UInt8}
    {rest : List (List UInt8)} (hhanded : s.handed = chunk :: rest) :
    s.accepts (.writeBinary asked found) = none ∨
      s.accepts (.writeBinary asked found) = some ⟨chunk, true⟩ := by
  by_cases hasked : asked = .opened
  · have hsend : s.accepts (.writeBinary asked found) =
        sendBinary found chunk s.side.queue.length := by
      simp [accepts, sideAct, hhanded, hasked, SendSide.accepts]
    rw [hsend]
    cases hitem : sendBinary found chunk s.side.queue.length with
    | none => exact Or.inl rfl
    | some item =>
      rw [(SendSide.room_of_sendBinary hitem).2]
      exact Or.inr rfl
  · exact Or.inl (by simp [accepts, sideAct, hasked])

theorem accepts_sendMessage (s : Delivery ρ) (text : List UInt8) :
    s.accepts (.sendMessage text) = none ∨
      s.accepts (.sendMessage text) = some ⟨text, false⟩ ∧ text ≠ [] := by
  cases haccepts : s.accepts (.sendMessage text) with
  | none => exact Or.inl rfl
  | some item =>
    have hitem : item ∈ sendMessage text s.side.queue.length := haccepts
    have hne := sendMessage_nonempty hitem
    rw [(SendSide.room_of_sendMessage hitem).2] at hne ⊢
    exact Or.inr ⟨rfl, List.isEmpty_eq_false_iff.mp hne⟩

/-- A step that puts nothing into the queue and hands nothing to it. -/
theorem KeepsOrder.idle {s t : Delivery ρ} {items : List SendItem} (h : s.KeepsOrder items)
    (hside : t.side.InOrder items) (htexts : t.texts = s.texts) (hhanded : t.handed = s.handed)
    (hmedia : t.media = s.media) : t.KeepsOrder items :=
  ⟨hside, htexts ▸ h.texts, hhanded ▸ hmedia ▸ h.chunks⟩

theorem KeepsOrder.streamFrame {s : Delivery ρ} {items : List SendItem} (h : s.KeepsOrder items)
    {call : StreamFrameCall} (hidle : s.handed = []) :
    (s.step speex (.streamFrame call)).KeepsOrder items := by
  obtain ⟨chunks, hsent, -⟩ := Forwarding.sent_streamFrame speex s.media call
  have hchunks := h.chunks
  rw [hidle, List.append_nil] at hchunks
  refine ⟨h.side, h.texts, ?_⟩
  show (dataOf true items ++ (s.media.streamFrame speex call).sent.drop s.media.sent.length).Sublist
    (s.media.streamFrame speex call).sent
  rw [hsent, List.drop_left]
  exact hchunks.append (List.Sublist.refl chunks)

theorem KeepsOrder.writeBinary {s : Delivery ρ} {items : List SendItem} (h : s.KeepsOrder items)
    {asked found : State} {chunk : List UInt8} {rest : List (List UInt8)}
    (hhanded : s.handed = chunk :: rest)
    (hside : (s.step speex (.writeBinary asked found)).side.InOrder
      (items ++ (s.accepts (.writeBinary asked found)).toList)) :
    (s.step speex (.writeBinary asked found)).KeepsOrder
      (items ++ (s.accepts (.writeBinary asked found)).toList) := by
  have hstep : (s.step speex (.writeBinary asked found)).texts = s.texts ∧
      (s.step speex (.writeBinary asked found)).handed = rest ∧
      (s.step speex (.writeBinary asked found)).media = s.media := by
    simp [step, hhanded]
  obtain ⟨htexts, hrest, hmedia⟩ := hstep
  have hchunks := h.chunks
  rw [hhanded] at hchunks
  refine ⟨hside, ?_, ?_⟩
  · rw [htexts, dataOf_append]
    rcases accepts_writeBinary hhanded with hnone | hsome
    · rw [hnone]
      simpa [dataOf] using h.texts
    · rw [hsome]
      simpa [dataOf] using h.texts
  · rw [hrest, hmedia, dataOf_append]
    rcases accepts_writeBinary hhanded with hnone | hsome
    · rw [hnone]
      have hless : (dataOf true items ++ rest).Sublist (dataOf true items ++ chunk :: rest) :=
        (List.Sublist.refl _).append (List.sublist_cons_self chunk rest)
      simpa [dataOf] using hless.trans hchunks
    · rw [hsome]
      simpa [dataOf] using hchunks

theorem KeepsOrder.sendMessage {s : Delivery ρ} {items : List SendItem} (h : s.KeepsOrder items)
    {text : List UInt8}
    (hside : (s.step speex (.sendMessage text)).side.InOrder
      (items ++ (s.accepts (.sendMessage text)).toList)) :
    (s.step speex (.sendMessage text)).KeepsOrder
      (items ++ (s.accepts (.sendMessage text)).toList) := by
  refine ⟨hside, ?_, ?_⟩
  · show (dataOf false (items ++ (s.accepts (.sendMessage text)).toList)).Sublist
      (s.texts ++ DeliveryAct.text (.sendMessage text))
    rw [dataOf_append]
    refine h.texts.append ?_
    rcases s.accepts_sendMessage text with hnone | ⟨hsome, hne⟩
    · rw [hnone]
      exact List.nil_sublist _
    · rw [hsome]
      simp [dataOf, DeliveryAct.text, hne]
  · show (dataOf true (items ++ (s.accepts (.sendMessage text)).toList) ++ s.handed).Sublist
      s.media.sent
    rw [dataOf_append]
    rcases s.accepts_sendMessage text with hnone | ⟨hsome, -⟩
    · rw [hnone]
      simpa [dataOf] using h.chunks
    · rw [hsome]
      simpa [dataOf] using h.chunks

theorem KeepsOrder.step {s t : Delivery ρ} {items : List SendItem} (h : s.KeepsOrder items)
    {a : DeliveryAct} (hs : DeliveryStep speex s a t) (hw : t.side.wire.Unfailed) :
    t.KeepsOrder (items ++ (s.accepts a).toList) := by
  obtain ⟨he, rfl⟩ := hs
  have hside := inOrder_side_step h.side he hw
  cases a with
  | streamFrame call =>
    have hnone : s.accepts (.streamFrame call) = none := rfl
    rw [hnone, Option.toList_none, List.append_nil]
    exact h.streamFrame he.1
  | writeBinary asked found =>
    obtain ⟨chunk, rest, hhanded⟩ := List.exists_cons_of_ne_nil he.1
    exact h.writeBinary hhanded hside
  | sendMessage text => exact h.sendMessage hside
  | drain =>
    have hnone : s.accepts .drain = none := rfl
    rw [hnone, Option.toList_none, List.append_nil] at hside ⊢
    exact h.idle hside rfl rfl rfl
  | pong payload =>
    have hnone : s.accepts (.pong payload) = none := rfl
    rw [hnone, Option.toList_none, List.append_nil] at hside ⊢
    exact h.idle hside rfl rfl rfl
  | ping =>
    have hnone : s.accepts .ping = none := rfl
    rw [hnone, Option.toList_none, List.append_nil] at hside ⊢
    exact h.idle hside rfl rfl rfl

theorem log_run {s t : Delivery ρ} {acts : List DeliveryAct}
    (hr : Run (DeliveryStep speex) s acts t) : s.side.wire.log <+: t.side.wire.log := by
  induction hr with
  | nil => exact List.prefix_refl _
  | @cons s u t a as hs _ ih => exact (hs.2 ▸ s.step_log a).trans ih

theorem KeepsOrder.run {s t : Delivery ρ} {acts : List DeliveryAct}
    (hr : Run (DeliveryStep speex) s acts t) (hw : t.side.wire.Unfailed) {items : List SendItem}
    (h : s.KeepsOrder items) : t.KeepsOrder (items ++ s.accepted speex acts) := by
  induction hr generalizing items with
  | nil s => simpa [accepted] using h
  | @cons s u t a as hs hrest ih =>
    have hu := h.step hs (hw.of_prefix (log_run hrest))
    have ht := ih hw hu
    rw [List.append_assoc] at ht
    obtain ⟨-, rfl⟩ := hs
    exact ht

theorem media_or_streamFrame (speex : CaptureSpeex ρ channels) (s : Delivery ρ)
    (a : DeliveryAct) :
    (∃ call, a = .streamFrame call) ∨ (s.step speex a).media = s.media ∧ a.packets = [] := by
  rcases media_step speex s a with ⟨hmedia, -⟩ | ⟨call, rfl, -⟩
  · cases a with
    | streamFrame call => exact Or.inl ⟨call, rfl⟩
    | writeBinary asked found => exact Or.inr ⟨hmedia, rfl⟩
    | sendMessage text => exact Or.inr ⟨hmedia, rfl⟩
    | drain => exact Or.inr ⟨hmedia, rfl⟩
    | pong payload => exact Or.inr ⟨hmedia, rfl⟩
    | ping => exact Or.inr ⟨hmedia, rfl⟩
  · exact Or.inl ⟨call, rfl⟩

theorem wholeFrames_run {s t : Delivery ρ} {acts : List DeliveryAct}
    (hr : Run (DeliveryStep speex) s acts t) {frames : List (List UInt8)}
    (h : s.media.WholeFrames frames) :
    t.media.WholeFrames (frames ++ acts.flatMap (·.packets)) := by
  induction hr generalizing frames with
  | nil s => simpa using h
  | @cons s u t a as hs _ ih =>
    have hu : u.media.WholeFrames (frames ++ a.packets) := by
      rw [← hs.2]
      rcases media_or_streamFrame speex s a with ⟨call, rfl⟩ | ⟨hmedia, hpackets⟩
      · exact h.streamFrame call
      · rw [hmedia, hpackets, List.append_nil]
        exact h
    have ht := ih hu
    rw [List.append_assoc] at ht
    exact ht

theorem inProduced_run {s t : Delivery ρ} {acts : List DeliveryAct}
    (hr : Run (DeliveryStep speex) s acts t) (h : s.media.InProduced) : t.media.InProduced := by
  refine Run.invariant (P := fun u => u.media.InProduced) ?_ hr h
  rintro s a t hs ⟨he, rfl⟩
  rcases media_or_streamFrame speex s a with ⟨call, rfl⟩ | ⟨hmedia, -⟩
  · exact hs.streamFrame he.2
  · rw [hmedia]
    exact hs

end Delivery

/-- Whatever is lost on the way, in every run in which no write has failed the server has read
whole frames: those that carry data, followed by the queue, are the items that were accepted, in
order. These are some of the texts sent and of the chunks formed, each one whole. The chunks are
made of some of the frames read, each one whole, or of what the resampler has put out. -/
theorem accepted_items_reach_server {ρ : Type*} {channels : Nat} (speex : CaptureSpeex ρ channels)
    (rtpPackets capacity : Nat) (resampler : Option ρ) {sockfd : Int} (hopen : 0 ≤ sockfd)
    (results : Nat → WriteResult) (masks : Nat → MaskKey) {acts : List DeliveryAct}
    {t : Delivery ρ}
    (hr : Run (DeliveryStep speex) (.start rtpPackets capacity resampler sockfd results masks)
      acts t)
    (hw : t.side.wire.Unfailed) :
    ∃ frames items,
      items = (Delivery.start rtpPackets capacity resampler sockfd results masks).accepted speex
        acts ∧
      t.side.wire.server = ⟨frames, [], false⟩ ∧
      frames.filter Frame.isData ++ t.side.queue.map SendItem.frame =
        items.map SendItem.frame ∧
      t.side.queue.length ≤ maxSendQueue ∧
      (dataOf false items).Sublist (acts.flatMap (·.text)) ∧
      (dataOf true items ++ t.handed).Sublist t.media.sent ∧
      (resampler = none → ∃ whole : List (List UInt8), whole.Sublist (acts.flatMap (·.packets)) ∧
        t.media.sent.flatten ++ t.media.tap.sbuffer = whole.flatten) ∧
      (resampler.isSome →
        (t.media.sent.flatten ++ t.media.tap.sbuffer).Sublist t.media.produced) := by
  have hkeeps := Delivery.KeepsOrder.run hr hw
    ⟨SendSide.inOrder_start hopen results masks, List.Sublist.refl _, List.Sublist.refl _⟩
  obtain ⟨frames, hcarries, horder⟩ := hkeeps.side.carries
  refine ⟨frames, _, rfl, hcarries.server, horder, hkeeps.side.room, ?_, hkeeps.chunks, ?_, ?_⟩
  · have htexts := hkeeps.texts
    rw [Delivery.texts_run hr] at htexts
    exact htexts
  · rintro rfl
    have hwhole := Delivery.wholeFrames_run hr (Forwarding.wholeFrames_start rtpPackets capacity)
    obtain ⟨out, held, buffered, hsub, hout, -, hbuffered⟩ := hwhole.parts
    refine ⟨out ++ buffered, ?_, ?_⟩
    · exact ((List.sublist_append_left out held).append (List.Sublist.refl _)).trans hsub
    · rw [List.flatten_append, hout, hbuffered]
  · intro hres
    have hstart := Forwarding.inProduced_start rtpPackets capacity hres
    exact (Delivery.inProduced_run hr hstart).handed_sublist

/-- A frame that is lost, as the client is closing when its chunk is handed over, and a text, where
the socket takes the first three bytes by themselves. -/
theorem text_without_frame_reaches_server :
    ∃ t : Delivery Unit, Run (DeliveryStep doublingSpeex)
        (.start 1 320 none 5 (fun k => if k = 0 then .wrote 3 else .wrote 100)
          fun _ => ⟨1, 2, 3, 4⟩)
        [.streamFrame callOfOneFrame, .writeBinary .closing .closing, .sendMessage [104], .drain]
        t ∧
      ∃ frames, t.side.wire.server = ⟨frames, [], false⟩ ∧
        frames.filter Frame.isData = [⟨true, 0x1, [104]⟩] := by
  have htext : encodeFrame 1 ⟨1, 2, 3, 4⟩ [104] = [129, 129, 1, 2, 3, 4, 105] := by decide
  let s : Delivery Unit :=
    .start 1 320 none 5 (fun k => if k = 0 then .wrote 3 else .wrote 100) fun _ => ⟨1, 2, 3, 4⟩
  let s₁ := s.step doublingSpeex (.streamFrame callOfOneFrame)
  let s₂ := s₁.step doublingSpeex (.writeBinary .closing .closing)
  let s₃ := s₂.step doublingSpeex (.sendMessage [104])
  have hhanded : s₁.handed = [[5, 6]] := by decide
  have hrun : Run (DeliveryStep doublingSpeex) s [.streamFrame callOfOneFrame,
      .writeBinary .closing .closing, .sendMessage [104], .drain]
      (s₃.step doublingSpeex .drain) := by
    refine .cons ⟨⟨rfl, by simp [callOfOneFrame, CapturedFrame.Whole]⟩, rfl⟩
      (.cons ⟨⟨?_, ?_⟩, rfl⟩ (.cons ⟨?_, rfl⟩ (.cons ⟨trivial, rfl⟩ (.nil _))))
    · rw [show (s.step doublingSpeex (.streamFrame callOfOneFrame)).handed = _ from hhanded]
      simp
    · rw [show (s.step doublingSpeex (.streamFrame callOfOneFrame)).handed = _ from hhanded]
      simp [FitsFrame]
    · simp [Delivery.Enabled, FitsFrame]
  have hqueue : s₃.side.queue = [⟨[104], false⟩] := by decide
  have hwire : s₃.side.wire = s.side.wire := by rfl
  have hdrain : s₃.step doublingSpeex .drain = { s₃ with side := ⟨[], { s.side.wire with
      calls := 1,
      log := [⟨1, [129, 129, 1, 2, 3, 4, 105], 0, 3⟩,
        ⟨1, [129, 129, 1, 2, 3, 4, 105], 3, 4⟩] }⟩ } := by
    simp [Delivery.step, SendSide.step, hqueue, hwire, drainSendQueue, drainLoop,
      SendSide.sendItem, sendFrame, s, Delivery.start, SendSide.start, htext, writeLoop,
      Wire.answer, Wire.record]
  have hitems : s.accepted doublingSpeex [.streamFrame callOfOneFrame,
      .writeBinary .closing .closing, .sendMessage [104], .drain] = [⟨[104], false⟩] := by
    decide
  obtain ⟨frames, items, rfl, hserver, horder, -⟩ := accepted_items_reach_server doublingSpeex 1
    320 none (show (0 : Int) ≤ 5 by decide) _ _ hrun (by rw [hdrain]; simp [Wire.Unfailed])
  refine ⟨_, hrun, frames, hserver, ?_⟩
  rw [hdrain, hitems] at horder
  simpa [SendItem.frame] using horder

end ModAudioStream
