import ModAudioStream.ForwardResampled
import ModAudioStream.WireFrames

namespace ModAudioStream

namespace Forwarding

variable {ρ : Type*} {channels : Nat} {speex : CaptureSpeex ρ channels}

/-- The bytes that are to go out: the frames as they are, or what the resampler has put out. -/
def due (s : Forwarding ρ) : List UInt8 :=
  if s.tap.resampler.isSome then s.produced else s.captured

/-- The chunks handed to `writeBinary` and the content of `sbuffer` are what is to go out. -/
def Balanced (s : Forwarding ρ) : Prop := s.sent.flatten ++ s.tap.sbuffer = s.due

/-- Between two calls, with a resampler or without. -/
def BetweenCalls (s : Forwarding ρ) : Prop := s.CallInv ∨ s.ResampledCallInv

/-- A call that reads frames while the client is not connected, or, without a resampler, one
for which `sbuffer` has no room. -/
def LosesFrame (speex : CaptureSpeex ρ channels) (s : Forwarding ρ) (call : StreamFrameCall) :
    Prop :=
  call.reads = true ∧ (call.connected = false ∨
    s.tap.resampler = none ∧ ¬Never (ReadStep speex) Drops s call.frames)

theorem sent_readDirect (s : Forwarding ρ) (f : CapturedFrame) :
    (s.readDirect f).sent = s.sent := by
  unfold readDirect
  split
  · rfl
  · split
    · rfl
    · rfl

theorem sent_readResampled (r : ρ) (s : Forwarding ρ) (f : CapturedFrame) :
    (s.readResampled speex r f).sent = s.sent := by
  unfold readResampled
  dsimp only
  split
  · rfl
  · split
    · rfl
    · split
      · split
        · rfl
        · rfl
      · rfl

theorem sent_read (s : Forwarding ρ) (f : CapturedFrame) : (s.read speex f).sent = s.sent := by
  cases hr : s.tap.resampler with
  | none =>
    rw [read_direct hr]
    exact sent_readDirect _ f
  | some r =>
    rw [read_resampled hr]
    exact sent_readResampled r _ f

theorem sent_foldl (s : Forwarding ρ) (frames : List CapturedFrame) :
    (frames.foldl (read speex) s).sent = s.sent := by
  induction frames generalizing s with
  | nil => rfl
  | cons f frames ih => exact (ih _).trans (s.sent_read f)

/-- A call adds chunks to those handed to `writeBinary`, none of them empty. -/
theorem sent_streamFrame (speex : CaptureSpeex ρ channels) (s : Forwarding ρ)
    (call : StreamFrameCall) :
    ∃ chunks, (s.streamFrame speex call).sent = s.sent ++ chunks ∧ ∀ c ∈ chunks, c ≠ [] := by
  unfold streamFrame
  split
  · refine ⟨_, congrArg (· ++ _) (s.sent_foldl call.frames), fun c hc => ?_⟩
    split at hc
    · simpa using (List.mem_filter.mp hc).2
    · exact absurd hc List.not_mem_nil
  · exact ⟨[], (List.append_nil _).symm, fun c hc => absurd hc List.not_mem_nil⟩

theorem balanced_direct {s : Forwarding ρ} (h : s.CallInv) : s.Balanced ↔ s.Forwards := by
  rw [Balanced, due, h.inv.direct]
  rfl

theorem balanced_resampled {s : Forwarding ρ} (h : s.ResampledCallInv) : s.Balanced := by
  rw [Balanced, due, if_pos h.inv.resampled]
  exact delivered_of_callInv h

theorem betweenCalls_start (rtpPackets capacity : Nat) (resampler : Option ρ) :
    (start rtpPackets capacity resampler).BetweenCalls ∧
      (start rtpPackets capacity resampler).Balanced := by
  cases resampler with
  | none => exact ⟨Or.inl (callInv_start rtpPackets capacity), rfl⟩
  | some r =>
    have h := resampledCallInv_start rtpPackets capacity r
    exact ⟨Or.inr h, balanced_resampled h⟩

theorem balanced_streamFrame {s : Forwarding ρ} (h : s.BetweenCalls) (hs : s.Balanced)
    {call : StreamFrameCall} (hwhole : ∀ f ∈ call.frames, f.Whole channels)
    (hl : ¬s.LosesFrame speex call) :
    (s.streamFrame speex call).BetweenCalls ∧ (s.streamFrame speex call).Balanced := by
  by_cases hr : call.reads = true
  · have hc : call.connected = true := by
      by_contra hc
      exact hl ⟨hr, Or.inl (Bool.eq_false_iff.mpr hc)⟩
    rcases h with h | h
    · have ht := @callInv_streamFrame ρ channels speex s h call hc
      refine ⟨Or.inl ht, (balanced_direct ht).mpr ?_⟩
      refine (forwards_streamFrame_iff h ((balanced_direct h).mp hs) hc).mpr fun hd => hl ?_
      exact ⟨hr, Or.inr ⟨h.inv.direct, hd.2.2⟩⟩
    · have ht := resampledCallInv_step s call (s.streamFrame speex call) h ⟨hwhole, hc, rfl⟩
      exact ⟨Or.inr ht, balanced_resampled ht⟩
  · have ht : s.streamFrame speex call = s := by
      unfold streamFrame
      exact if_neg hr
    rw [ht]
    exact ⟨h, hs⟩

end Forwarding

/-- The way out of a stream: `stream_frame` with the chunks of a call that it has still to hand to
`writeBinary`, and the queue with the connection. `texts` only records what `sendMessage` was
given. -/
structure Delivery (ρ : Type*) where
  media : Forwarding ρ
  handed : List (List UInt8)
  side : SendSide
  texts : List (List UInt8)

/-- The media thread calls `stream_frame` and then `writeBinary` for chunk after chunk, where
`isConnected` and `sendBinary` look at `state_` again; other threads send texts, and the worker
drains the queue, answers pings and pings. -/
inductive DeliveryAct where
  | streamFrame (call : StreamFrameCall)
  | writeBinary (asked found : State)
  | sendMessage (text : List UInt8)
  | drain
  | pong (payload : List UInt8)
  | ping

/-- The frames that a step reads. -/
def DeliveryAct.bytes : DeliveryAct → List UInt8
  | .streamFrame call => call.bytes
  | _ => []

/-- The text that a step hands to `sendMessage`. -/
def DeliveryAct.text : DeliveryAct → List (List UInt8)
  | .sendMessage text => if text.isEmpty then [] else [text]
  | _ => []

/-- The payloads of the frames with this opcode. -/
def payloads (opcode : UInt8) (frames : List Frame) : List (List UInt8) :=
  (frames.filter (·.opcode == opcode)).map Frame.payload

theorem payloads_append (opcode : UInt8) (frames more : List Frame) :
    payloads opcode (frames ++ more) = payloads opcode frames ++ payloads opcode more := by
  rw [payloads, List.filter_append, List.map_append]
  rfl

namespace Delivery

variable {ρ : Type*} {channels : Nat} {speex : CaptureSpeex ρ channels}

def start (rtpPackets capacity : Nat) (resampler : Option ρ) (sockfd : Int)
    (results : Nat → WriteResult) (masks : Nat → MaskKey) : Delivery ρ :=
  ⟨.start rtpPackets capacity resampler, [], .start sockfd results masks, []⟩

/-- The payloads of the queued items of one kind. -/
def queued (s : Delivery ρ) (isBinary : Bool) : List (List UInt8) :=
  (s.side.queue.filter (·.isBinary == isBinary)).map SendItem.data

/-- When a step can be taken: `stream_frame` is called again when it has returned, its frames are
whole samples, and every size is a `size_t`. -/
def Enabled (channels : Nat) (s : Delivery ρ) : DeliveryAct → Prop
  | .streamFrame call => s.handed = [] ∧ ∀ f ∈ call.frames, f.Whole channels
  | .writeBinary _ _ => s.handed ≠ [] ∧ ∀ chunk ∈ s.handed.head?, FitsFrame chunk
  | .sendMessage text => FitsFrame text
  | .drain => True
  | .pong payload => FitsFrame payload
  | .ping => True

def step (speex : CaptureSpeex ρ channels) (s : Delivery ρ) : DeliveryAct → Delivery ρ
  | .streamFrame call =>
    let media := s.media.streamFrame speex call
    { s with media := media, handed := media.sent.drop s.media.sent.length }
  | .writeBinary asked found =>
    match s.handed with
    | [] => s
    | chunk :: rest =>
      { s with handed := rest,
               side := if asked = .opened then s.side.step (.sendBinary found chunk) else s.side }
  | .sendMessage text =>
    { s with side := s.side.step (.sendMessage text),
             texts := s.texts ++ DeliveryAct.text (.sendMessage text) }
  | .drain => { s with side := s.side.step .drain }
  | .pong payload => { s with side := s.side.step (.pong payload) }
  | .ping => { s with side := s.side.step .ping }

/-- A step that gives something up: frames with no room or no connection, or a chunk or a text
for which the client is not open or the queue is full. -/
def Loses (speex : CaptureSpeex ρ channels) (s : Delivery ρ) : DeliveryAct → Prop
  | .streamFrame call => s.media.LosesFrame speex call
  | .writeBinary asked found =>
    asked ≠ .opened ∨ found ≠ .opened ∨ maxSendQueue ≤ s.side.queue.length
  | .sendMessage text => text ≠ [] ∧ maxSendQueue ≤ s.side.queue.length
  | _ => False

end Delivery

def DeliveryStep {ρ : Type*} {channels : Nat} (speex : CaptureSpeex ρ channels) (s : Delivery ρ)
    (a : DeliveryAct) (t : Delivery ρ) : Prop := s.Enabled channels a ∧ s.step speex a = t

namespace Delivery

variable {ρ : Type*} {channels : Nat} {speex : CaptureSpeex ρ channels}

/-- What holds between the frames on the wire, the queue, and what the two kinds of callers have
handed in. -/
structure Flows (s : Delivery ρ) : Prop where
  media : s.media.BetweenCalls
  balanced : s.media.Balanced
  handed : ∀ chunk ∈ s.handed, chunk ≠ []
  opened : 0 ≤ s.side.wire.sockfd
  queue : ∀ item ∈ s.side.queue, item.data.isEmpty = false ∧ FitsFrame item.data
  carries : ∃ frames, s.side.wire.Carries frames ∧
    payloads 0x1 frames ++ s.queued false = s.texts ∧
    payloads 0x2 frames ++ s.queued true ++ s.handed = s.media.sent

theorem flows_start (rtpPackets capacity : Nat) (resampler : Option ρ) {sockfd : Int}
    (hopen : 0 ≤ sockfd) (results : Nat → WriteResult) (masks : Nat → MaskKey) :
    (start rtpPackets capacity resampler sockfd results masks).Flows := by
  obtain ⟨hmedia, hbalanced⟩ := Forwarding.betweenCalls_start rtpPackets capacity resampler
  exact {
    media := hmedia
    balanced := hbalanced
    handed := nofun
    opened := hopen
    queue := nofun
    carries := ⟨[], ⟨[], rfl, rfl⟩, rfl, rfl⟩ }

theorem queued_snoc (s : Delivery ρ) (item : SendItem) (isBinary : Bool) :
    ((s.side.queue ++ [item]).filter (·.isBinary == isBinary)).map SendItem.data =
      s.queued isBinary ++ if item.isBinary = isBinary then [item.data] else [] := by
  rw [List.filter_append, List.map_append, queued]
  by_cases h : item.isBinary = isBinary <;> simp [h]

theorem queue_snoc {queue : List SendItem}
    (h : ∀ item ∈ queue, item.data.isEmpty = false ∧ FitsFrame item.data) {item : SendItem}
    (hne : item.data ≠ []) (hfits : FitsFrame item.data) :
    ∀ x ∈ queue ++ [item], x.data.isEmpty = false ∧ FitsFrame x.data := by
  intro x hx
  rcases List.mem_append.mp hx with hx | hx
  · exact h x hx
  · rw [List.mem_singleton.mp hx]
    exact ⟨List.isEmpty_eq_false_iff.mpr hne, hfits⟩

theorem flows_streamFrame {s : Delivery ρ} (h : s.Flows) {call : StreamFrameCall}
    (he : s.Enabled channels (.streamFrame call)) (hl : ¬s.Loses speex (.streamFrame call)) :
    (s.step speex (.streamFrame call)).Flows := by
  obtain ⟨hidle, hwhole⟩ := he
  obtain ⟨frames, hcarries, htexts, haudio⟩ := h.carries
  obtain ⟨hmedia, hbalanced⟩ := Forwarding.balanced_streamFrame h.media h.balanced hwhole hl
  obtain ⟨chunks, hsent, hne⟩ := Forwarding.sent_streamFrame speex s.media call
  have hhanded : (s.media.streamFrame speex call).sent.drop s.media.sent.length = chunks := by
    rw [hsent, List.drop_left]
  rw [hidle, List.append_nil] at haudio
  exact {
    media := hmedia
    balanced := hbalanced
    handed := by
      show ∀ chunk ∈ (s.media.streamFrame speex call).sent.drop s.media.sent.length, chunk ≠ []
      rw [hhanded]
      exact hne
    opened := h.opened
    queue := h.queue
    carries := by
      refine ⟨frames, hcarries, htexts, ?_⟩
      show payloads 0x2 frames ++ s.queued true ++
        (s.media.streamFrame speex call).sent.drop s.media.sent.length =
          (s.media.streamFrame speex call).sent
      rw [hhanded, hsent, haudio] }

theorem flows_writeBinary {s : Delivery ρ} (h : s.Flows) {asked found : State}
    (he : s.Enabled channels (.writeBinary asked found))
    (hl : ¬s.Loses speex (.writeBinary asked found)) :
    (s.step speex (.writeBinary asked found)).Flows := by
  obtain ⟨frames, hcarries, htexts, haudio⟩ := h.carries
  obtain ⟨hpending, hfits⟩ := he
  simp only [Loses, not_or, not_not, Nat.not_le] at hl
  obtain ⟨rfl, rfl, hroom⟩ := hl
  obtain ⟨chunk, rest, hhanded⟩ := List.exists_cons_of_ne_nil hpending
  have hne : chunk ≠ [] := h.handed chunk (by rw [hhanded]; exact List.mem_cons_self)
  have hitem : sendBinary .opened chunk s.side.queue.length = some ⟨chunk, true⟩ := by
    unfold sendBinary
    rw [if_neg (by simpa using hne), if_neg (by simp)]
    exact unlessFull_eq_some.mpr ⟨hroom, rfl⟩
  have hstep : s.step speex (.writeBinary .opened .opened) =
      { s with handed := rest, side := ⟨s.side.queue ++ [⟨chunk, true⟩], s.side.wire⟩ } := by
    simp [step, hhanded, SendSide.step, hitem]
  rw [hstep]
  exact {
    media := h.media
    balanced := h.balanced
    handed := fun c hc => h.handed c (by rw [hhanded]; exact List.mem_cons_of_mem _ hc)
    opened := h.opened
    queue := queue_snoc h.queue hne (hfits chunk (by rw [hhanded]; rfl))
    carries := by
      refine ⟨frames, hcarries, ?_, ?_⟩
      · rw [queued, queued_snoc]
        simpa using htexts
      · rw [queued, queued_snoc]
        simpa [hhanded] using haudio }

theorem flows_sendMessage {s : Delivery ρ} (h : s.Flows) {text : List UInt8}
    (he : s.Enabled channels (.sendMessage text)) (hl : ¬s.Loses speex (.sendMessage text)) :
    (s.step speex (.sendMessage text)).Flows := by
  obtain ⟨frames, hcarries, htexts, haudio⟩ := h.carries
  by_cases hempty : text = []
  · have hstep : s.step speex (.sendMessage text) = s := by
      simp [step, SendSide.step, sendMessage, DeliveryAct.text, hempty]
    rw [hstep]
    exact h
  · have hroom : s.side.queue.length < maxSendQueue :=
      Nat.lt_of_not_le fun hfull => hl ⟨hempty, hfull⟩
    have hitem : sendMessage text s.side.queue.length = some ⟨text, false⟩ := by
      unfold sendMessage
      rw [if_neg (by simpa using hempty)]
      exact unlessFull_eq_some.mpr ⟨hroom, rfl⟩
    have hstep : s.step speex (.sendMessage text) =
        { s with side := ⟨s.side.queue ++ [⟨text, false⟩], s.side.wire⟩,
                 texts := s.texts ++ [text] } := by
      simp [step, SendSide.step, hitem, DeliveryAct.text, hempty]
    rw [hstep]
    exact {
      media := h.media
      balanced := h.balanced
      handed := h.handed
      opened := h.opened
      queue := queue_snoc h.queue hempty he
      carries := by
        refine ⟨frames, hcarries, ?_, ?_⟩
        · rw [queued, queued_snoc, ← htexts]
          simp
        · rw [queued, queued_snoc]
          simpa using haudio }

theorem payloads_queue (queue : List SendItem) :
    payloads 0x1 (queue.map SendItem.frame) =
        (queue.filter (·.isBinary == false)).map SendItem.data ∧
      payloads 0x2 (queue.map SendItem.frame) =
        (queue.filter (·.isBinary == true)).map SendItem.data := by
  induction queue with
  | nil => exact ⟨rfl, rfl⟩
  | cons item queue ih =>
    obtain ⟨htext, hbinary⟩ := ih
    unfold payloads at htext hbinary ⊢
    cases hkind : item.isBinary with
    | true => exact ⟨by simpa [SendItem.frame, hkind] using htext,
        by simpa [SendItem.frame, hkind] using hbinary⟩
    | false => exact ⟨by simpa [SendItem.frame, hkind] using htext,
        by simpa [SendItem.frame, hkind] using hbinary⟩

theorem flows_drain {s : Delivery ρ} (h : s.Flows)
    (hw : (s.step speex .drain).side.wire.Unfailed) : (s.step speex .drain).Flows := by
  obtain ⟨frames, hcarries, htexts, haudio⟩ := h.carries
  obtain ⟨hnil, hcarries'⟩ := drainSendQueue_carries hcarries h.opened h.queue hw
  obtain ⟨htext, hbinary⟩ := payloads_queue s.side.queue
  have hqueued (isBinary : Bool) : (s.step speex .drain).queued isBinary = [] := by
    show ((drainSendQueue SendSide.sendItem s.side.queue s.side.wire).1.filter _).map _ = []
    rw [hnil]
    rfl
  exact {
    media := h.media
    balanced := h.balanced
    handed := h.handed
    opened := (drainLoop_log s.side.queue 0 s.side.wire).2 ▸ h.opened
    queue := by
      show ∀ item ∈ (drainSendQueue SendSide.sendItem s.side.queue s.side.wire).1, _
      rw [hnil]
      nofun
    carries := by
      refine ⟨_, hcarries', ?_, ?_⟩
      · rw [payloads_append, htext, hqueued, List.append_nil]
        exact htexts
      · rw [payloads_append, hbinary, hqueued, List.append_nil]
        exact haudio }

/-- A control frame goes out between the others and adds to neither kind. -/
theorem flows_control {s : Delivery ρ} (h : s.Flows) {opcode : UInt8}
    (hop : opcode = 0x9 ∨ opcode = 0xA) {payload : List UInt8} (hfits : FitsFrame payload)
    (hw : (sendFrame opcode payload s.side.wire).2.Unfailed) :
    ({ s with side := ⟨s.side.queue, (sendFrame opcode payload s.side.wire).2⟩ } :
      Delivery ρ).Flows := by
  obtain ⟨frames, hcarries, htexts, haudio⟩ := h.carries
  obtain ⟨-, hcarries'⟩ := sendFrame_carries hcarries h.opened (Or.inr (Or.inr hop)) hfits hw
  have hcontrol (kind : UInt8) (hk : kind = 0x1 ∨ kind = 0x2) :
      payloads kind (frames ++ [⟨true, opcode, payload⟩]) = payloads kind frames := by
    rw [payloads_append]
    rcases hop with rfl | rfl <;> rcases hk with rfl | rfl <;> simp [payloads]
  exact {
    media := h.media
    balanced := h.balanced
    handed := h.handed
    opened := (sendFrame_log opcode payload s.side.wire).2 ▸ h.opened
    queue := h.queue
    carries := ⟨_, hcarries', by rw [hcontrol 0x1 (Or.inl rfl)]; exact htexts,
      by rw [hcontrol 0x2 (Or.inr rfl)]; exact haudio⟩ }

theorem step_log (s : Delivery ρ) (a : DeliveryAct) :
    s.side.wire.log <+: (s.step speex a).side.wire.log := by
  cases a with
  | streamFrame call => exact List.prefix_refl _
  | writeBinary asked found =>
    unfold step
    dsimp only
    split
    · exact List.prefix_refl _
    · dsimp only
      split
      · exact List.prefix_refl _
      · exact List.prefix_refl _
  | sendMessage text => exact List.prefix_refl _
  | drain => exact (drainLoop_log s.side.queue 0 s.side.wire).1
  | pong payload => exact (sendFrame_log 0xA payload s.side.wire).1
  | ping => exact (sendFrame_log 0x9 [] s.side.wire).1

theorem flows_step {s t : Delivery ρ} {a : DeliveryAct} (h : s.Flows) (hl : ¬s.Loses speex a)
    (hs : DeliveryStep speex s a t) (hw : t.side.wire.Unfailed) : t.Flows := by
  obtain ⟨he, rfl⟩ := hs
  cases a with
  | streamFrame call => exact flows_streamFrame h he hl
  | writeBinary asked found => exact flows_writeBinary h he hl
  | sendMessage text => exact flows_sendMessage h he hl
  | drain => exact flows_drain h hw
  | pong payload => exact flows_control h (Or.inr rfl) he hw
  | ping => exact flows_control h (Or.inl rfl) (by simp [FitsFrame]) hw

theorem flows_run {s t : Delivery ρ} {acts : List DeliveryAct}
    (hr : Run (DeliveryStep speex) s acts t) (hn : Never (DeliveryStep speex) (Loses speex) s acts)
    (h : s.Flows) (hw : t.side.wire.Unfailed) : t.Flows := by
  have hall : Always (DeliveryStep speex) (fun u => u.side.wire.Unfailed → u.Flows) s acts := by
    refine always_of_kept (fun u a v hu hl hstep hv => ?_) (fun _ => h) hn
    have hlog : u.side.wire.log <+: v.side.wire.log := hstep.2 ▸ u.step_log a
    exact flows_step (hu (hv.of_prefix hlog)) hl hstep hv
  exact hall acts t (List.prefix_refl _) hr hw

theorem texts_run {s t : Delivery ρ} {acts : List DeliveryAct}
    (hr : Run (DeliveryStep speex) s acts t) : t.texts = s.texts ++ acts.flatMap (·.text) := by
  induction hr with
  | nil => simp
  | @cons s u t a as hs _ ih =>
    have hstep : u.texts = s.texts ++ a.text := by
      rw [← hs.2]
      cases a with
      | writeBinary asked found =>
        unfold step
        dsimp only
        split
        · exact (List.append_nil _).symm
        · exact (List.append_nil _).symm
      | sendMessage text => rfl
      | streamFrame call => exact (List.append_nil _).symm
      | drain => exact (List.append_nil _).symm
      | pong payload => exact (List.append_nil _).symm
      | ping => exact (List.append_nil _).symm
    rw [ih, hstep, List.append_assoc, List.flatMap_cons]

theorem media_step (speex : CaptureSpeex ρ channels) (s : Delivery ρ) (a : DeliveryAct) :
    ((s.step speex a).media = s.media ∧ a.bytes = []) ∨
      ∃ call, a = .streamFrame call ∧ (s.step speex a).media = s.media.streamFrame speex call := by
  cases a with
  | streamFrame call => exact Or.inr ⟨call, rfl, rfl⟩
  | writeBinary asked found =>
    refine Or.inl ⟨?_, rfl⟩
    unfold step
    dsimp only
    split
    · rfl
    · rfl
  | sendMessage text => exact Or.inl ⟨rfl, rfl⟩
  | drain => exact Or.inl ⟨rfl, rfl⟩
  | pong payload => exact Or.inl ⟨rfl, rfl⟩
  | ping => exact Or.inl ⟨rfl, rfl⟩

/-- Without a resampler what is to go out is what the calls have read. -/
theorem captured_run {s t : Delivery ρ} {acts : List DeliveryAct}
    (hr : Run (DeliveryStep speex) s acts t) (hn : Never (DeliveryStep speex) (Loses speex) s acts)
    (h : s.media.CallInv) :
    t.media.CallInv ∧ t.media.captured = s.media.captured ++ acts.flatMap (·.bytes) := by
  induction hr with
  | nil => exact ⟨h, by simp⟩
  | @cons s u t a as hs _ ih =>
    obtain ⟨hl, hn⟩ := never_cons_iff.mp hn
    have hstep : u.media.CallInv ∧ u.media.captured = s.media.captured ++ a.bytes := by
      rw [← hs.2]
      rcases media_step speex s a with ⟨hmedia, hbytes⟩ | ⟨call, rfl, hmedia⟩
      · rw [hmedia, hbytes, List.append_nil]
        exact ⟨h, rfl⟩
      · rw [hmedia]
        refine ⟨?_, (Forwarding.streamFrame_frame h call).1⟩
        by_cases hreads : call.reads = true
        · have hc : call.connected = true := by
            by_contra hc
            exact hl ⟨hreads, Or.inl (Bool.eq_false_iff.mpr hc)⟩
          exact Forwarding.callInv_streamFrame h hc
        · unfold Forwarding.streamFrame
          rw [if_neg hreads]
          exact h
    obtain ⟨hend, hcaptured⟩ := ih (hn u hs) hstep.1
    exact ⟨hend, by rw [hcaptured, hstep.2, List.append_assoc, List.flatMap_cons]⟩

end Delivery

/-- However the threads take their steps and the socket cuts up what it is offered, as long as no
step gives anything up and no write has failed, the server has read whole frames. Their texts and
those in the queue are the texts sent; their audio, the audio in the queue, the chunks in hand
and `sbuffer` are what was to go out, each byte once and in order. -/
theorem audio_reaches_server {ρ : Type*} {channels : Nat} (speex : CaptureSpeex ρ channels)
    (rtpPackets capacity : Nat) (resampler : Option ρ) {sockfd : Int} (hopen : 0 ≤ sockfd)
    (results : Nat → WriteResult) (masks : Nat → MaskKey) {acts : List DeliveryAct}
    {t : Delivery ρ}
    (hr : Run (DeliveryStep speex) (.start rtpPackets capacity resampler sockfd results masks)
      acts t)
    (hn : Never (DeliveryStep speex) (Delivery.Loses speex)
      (.start rtpPackets capacity resampler sockfd results masks) acts)
    (hw : t.side.wire.Unfailed) :
    ∃ frames, t.side.wire.server = ⟨frames, [], false⟩ ∧
      payloads 0x1 frames ++ t.queued false = acts.flatMap (·.text) ∧
      payloads 0x2 frames ++ t.queued true ++ t.handed = t.media.sent ∧
      (payloads 0x2 frames ++ t.queued true ++ t.handed).flatten ++ t.media.tap.sbuffer =
        t.media.due ∧
      (resampler = none → t.media.due = acts.flatMap (·.bytes)) := by
  have hflows := Delivery.flows_run hr hn
    (Delivery.flows_start rtpPackets capacity resampler hopen results masks) hw
  obtain ⟨frames, hcarries, htexts, haudio⟩ := hflows.carries
  refine ⟨frames, hcarries.server, ?_, haudio, ?_, ?_⟩
  · rw [htexts, Delivery.texts_run hr]
    rfl
  · rw [haudio]
    exact hflows.balanced
  · rintro rfl
    obtain ⟨hend, hcaptured⟩ :=
      Delivery.captured_run hr hn (Forwarding.callInv_start rtpPackets capacity)
    rw [Forwarding.due, hend.inv.direct, ← List.nil_append (acts.flatMap _)]
    exact hcaptured

def callOfOneFrame : StreamFrameCall := ⟨false, false, true, true, true, [⟨[5, 6], 1⟩]⟩

/-- A frame and a text, where the socket takes the first three bytes by themselves. -/
theorem one_frame_reaches_server :
    ∃ t : Delivery Unit, Run (DeliveryStep doublingSpeex)
        (.start 1 320 none 5 (fun k => if k = 0 then .wrote 3 else .wrote 100)
          fun _ => ⟨1, 2, 3, 4⟩)
        [.streamFrame callOfOneFrame, .writeBinary .opened .opened, .sendMessage [104], .drain] t ∧
      ∃ frames, t.side.wire.server = ⟨frames, [], false⟩ ∧ payloads 0x1 frames = [[104]] ∧
        (payloads 0x2 frames).flatten = [5, 6] := by
  have hbinary : encodeFrame 2 ⟨1, 2, 3, 4⟩ [5, 6] = [130, 130, 1, 2, 3, 4, 4, 4] := by decide
  have htext : encodeFrame 1 ⟨1, 2, 3, 4⟩ [104] = [129, 129, 1, 2, 3, 4, 105] := by decide
  let s : Delivery Unit :=
    .start 1 320 none 5 (fun k => if k = 0 then .wrote 3 else .wrote 100) fun _ => ⟨1, 2, 3, 4⟩
  let s₁ := s.step doublingSpeex (.streamFrame callOfOneFrame)
  let s₂ := s₁.step doublingSpeex (.writeBinary .opened .opened)
  let s₃ := s₂.step doublingSpeex (.sendMessage [104])
  have hhanded : s₁.handed = [[5, 6]] := by decide
  have hrun : Run (DeliveryStep doublingSpeex) s [.streamFrame callOfOneFrame,
      .writeBinary .opened .opened, .sendMessage [104], .drain] (s₃.step doublingSpeex .drain) := by
    refine .cons ⟨⟨rfl, by simp [callOfOneFrame, CapturedFrame.Whole]⟩, rfl⟩
      (.cons ⟨⟨?_, ?_⟩, rfl⟩ (.cons ⟨?_, rfl⟩ (.cons ⟨trivial, rfl⟩ (.nil _))))
    · rw [show (s.step doublingSpeex (.streamFrame callOfOneFrame)).handed = _ from hhanded]
      simp
    · rw [show (s.step doublingSpeex (.streamFrame callOfOneFrame)).handed = _ from hhanded]
      simp [FitsFrame]
    · simp [Delivery.Enabled, FitsFrame]
  have hnever : Never (DeliveryStep doublingSpeex) (Delivery.Loses doublingSpeex) s
      [.streamFrame callOfOneFrame, .writeBinary .opened .opened, .sendMessage [104], .drain] := by
    refine never_cons_iff.mpr ⟨?_, ?_⟩
    · rintro ⟨-, hc | ⟨-, hd⟩⟩
      · exact absurd hc (by decide)
      · exact hd (never_cons_iff.mpr ⟨fun h => h.1 rfl, fun _ _ => never_nil⟩)
    rintro _ ⟨-, rfl⟩
    refine never_cons_iff.mpr ⟨?_, ?_⟩
    · simp [Delivery.Loses, Delivery.step, s, Delivery.start, SendSide.start, maxSendQueue]
    rintro _ ⟨-, rfl⟩
    refine never_cons_iff.mpr ⟨?_, ?_⟩
    · rintro ⟨-, hfull⟩
      exact absurd hfull (by decide)
    rintro _ ⟨-, rfl⟩
    exact never_cons_iff.mpr ⟨id, fun _ _ => never_nil⟩
  have hqueue : s₃.side.queue = [⟨[5, 6], true⟩, ⟨[104], false⟩] := by decide
  have hwire : s₃.side.wire = s.side.wire := by rfl
  have hdrain : s₃.step doublingSpeex .drain = { s₃ with side := ⟨[], { s.side.wire with
      calls := 2,
      log := [⟨1, [130, 130, 1, 2, 3, 4, 4, 4], 0, 3⟩, ⟨1, [130, 130, 1, 2, 3, 4, 4, 4], 3, 5⟩,
        ⟨2, [129, 129, 1, 2, 3, 4, 105], 0, 7⟩] }⟩ } := by
    simp [Delivery.step, SendSide.step, hqueue, hwire, drainSendQueue, drainLoop,
      SendSide.sendItem, sendFrame, s, Delivery.start, SendSide.start, hbinary, htext, writeLoop,
      Wire.answer, Wire.record]
  obtain ⟨frames, hserver, htexts, -, haudio, hdue⟩ := audio_reaches_server doublingSpeex 1 320 none
    (show (0 : Int) ≤ 5 by decide) _ _ hrun hnever (by rw [hdrain]; simp [Wire.Unfailed])
  refine ⟨_, hrun, frames, hserver, ?_, ?_⟩
  · rw [hdrain] at htexts
    simpa [Delivery.queued, DeliveryAct.text] using htexts
  · rw [hdue rfl, hdrain] at haudio
    have hhanded₃ : s₃.handed = [] := by decide
    have hbuffer : s₃.media.tap.sbuffer = [] := by decide
    simpa [Delivery.queued, DeliveryAct.bytes, hhanded₃, hbuffer, StreamFrameCall.bytes,
      StreamFrameCall.reads, callOfOneFrame] using haudio

end ModAudioStream
