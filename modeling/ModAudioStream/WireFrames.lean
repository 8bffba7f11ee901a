import ModAudioStream.WireIntegrity
import ModAudioStream.FrameCodec

namespace ModAudioStream

/-- No write has failed so far: the socket took some bytes each time. -/
def Wire.Unfailed (w : Wire) : Prop := ∀ wr ∈ w.log, 0 < wr.taken

theorem Wire.Unfailed.of_prefix {w w' : Wire} (h : w'.Unfailed) (hlog : w.log <+: w'.log) :
    w.Unfailed := fun wr hwr => h wr (hlog.subset hwr)

theorem acceptedBytes_record (w : Wire) (frame : List UInt8) (offset taken : Nat) :
    acceptedBytes (w.record frame offset taken).log =
      acceptedBytes w.log ++ (frame.drop offset).take taken := by
  simp [acceptedBytes, Wire.record, Write.bytes]

theorem writeLoop_log (frame : List UInt8) (offset : Nat) (w : Wire) :
    w.log <+: (writeLoop frame offset w).2.log ∧
      (writeLoop frame offset w).2.sockfd = w.sockfd := by
  have hrecord (w : Wire) (offset taken : Nat) :
      w.log <+: (w.record frame offset taken).log := List.prefix_append _ _
  fun_induction writeLoop frame offset w with
  | case1 offset w hlt n _ taken ht ih => exact ⟨(hrecord w offset taken).trans ih.1, ih.2⟩
  | case2 offset w hlt => exact ⟨hrecord w offset 0, rfl⟩
  | case3 offset w hlt => exact ⟨hrecord w offset 0, rfl⟩
  | case4 offset w hlt => exact ⟨hrecord w offset 0, rfl⟩
  | case5 offset w hge => exact ⟨List.prefix_refl _, rfl⟩

/-- However the socket cuts up what it is offered, the loop goes on until a write fails. -/
theorem writeLoop_unfailed {frame : List UInt8} {offset : Nat} {w : Wire}
    (hle : offset ≤ frame.length) (h : (writeLoop frame offset w).2.Unfailed) :
    (writeLoop frame offset w).1 = frame.length ∧
      acceptedBytes (writeLoop frame offset w).2.log =
        acceptedBytes w.log ++ frame.drop offset := by
  have hfailed (w : Wire) (offset : Nat) : ¬(w.record frame offset 0).Unfailed := by
    intro hw
    exact Nat.lt_irrefl 0 (hw _ (List.mem_append_right _ List.mem_cons_self))
  fun_induction writeLoop frame offset w with
  | case1 offset w hlt n _ taken ht ih =>
    obtain ⟨hend, hbytes⟩ := ih (by omega) h
    refine ⟨hend, ?_⟩
    rw [hbytes, acceptedBytes_record, List.append_assoc, ← List.drop_drop, List.take_append_drop]
  | case2 offset w hlt => exact absurd h (hfailed w offset)
  | case3 offset w hlt => exact absurd h (hfailed w offset)
  | case4 offset w hlt => exact absurd h (hfailed w offset)
  | case5 offset w hge =>
    have hend : offset = frame.length := Nat.le_antisymm hle (Nat.le_of_not_lt hge)
    subst hend
    exact ⟨rfl, by simp⟩

theorem sendFrame_log (opcode : UInt8) (payload : List UInt8) (w : Wire) :
    w.log <+: (sendFrame opcode payload w).2.log ∧
      (sendFrame opcode payload w).2.sockfd = w.sockfd := by
  unfold sendFrame
  split
  · exact ⟨List.prefix_refl _, rfl⟩
  · exact writeLoop_log (encodeFrame opcode (w.masks w.calls) payload) 0
      { w with calls := w.calls + 1 }

theorem sendFrame_unfailed {opcode : UInt8} {payload : List UInt8} {w : Wire}
    (hopen : 0 ≤ w.sockfd) (h : (sendFrame opcode payload w).2.Unfailed) :
    (sendFrame opcode payload w).1 = true ∧
      acceptedBytes (sendFrame opcode payload w).2.log =
        acceptedBytes w.log ++ encodeFrame opcode (w.masks w.calls) payload := by
  unfold sendFrame at h ⊢
  rw [if_neg (by omega)] at h ⊢
  obtain ⟨hend, hbytes⟩ := writeLoop_unfailed (Nat.zero_le _) h
  exact ⟨beq_iff_eq.mpr hend, hbytes⟩

theorem drainLoop_log (queue : List SendItem) (retries : Nat) (w : Wire) :
    w.log <+: (drainLoop (fun item => item.data.isEmpty) SendSide.sendItem queue retries w).2.log ∧
      (drainLoop (fun item => item.data.isEmpty) SendSide.sendItem queue retries w).2.sockfd =
        w.sockfd := by
  refine drainLoop_invariant (P := fun v => w.log <+: v.log ∧ v.sockfd = w.sockfd) ?_ queue retries
    w ⟨List.prefix_refl _, rfl⟩
  rintro item v ⟨hlog, hfd⟩
  obtain ⟨hlog', hfd'⟩ := sendFrame_log (if item.isBinary then 0x2 else 0x1) item.data v
  exact ⟨hlog.trans hlog', hfd'.trans hfd⟩

/-- The size of the frame that carries `payload` is a `size_t`. -/
def FitsFrame (payload : List UInt8) : Prop := payload.length + 14 < 2 ^ 64

/-- What `sendFrame` makes of an item. -/
def SendItem.frame (item : SendItem) : Frame :=
  ⟨true, if item.isBinary then 0x2 else 0x1, item.data⟩

theorem encodeFrame_fits (opcode : UInt8) (mask : MaskKey) {payload : List UInt8}
    (h : FitsFrame payload) : (encodeFrame opcode mask payload).length < 2 ^ 64 := by
  have hlen := encodeFrame_length opcode mask payload
  have hhead : headerLength payload.length ≤ 14 := by
    unfold headerLength
    split
    · omega
    · split <;> omega
  have hfits : payload.length + 14 < 2 ^ 64 := h
  omega

/-- The socket has taken the encodings of these frames, and nothing else. -/
def Wire.Carries (w : Wire) (frames : List Frame) : Prop :=
  ∃ fs : List SentFrame, acceptedBytes w.log = fs.flatMap SentFrame.encode ∧
    fs.map SentFrame.frame = frames

theorem Wire.Carries.snoc {w w' : Wire} {frames : List Frame} (h : w.Carries frames)
    {opcode : UInt8} {mask : MaskKey} {payload : List UInt8}
    (known : opcode = 0x1 ∨ opcode = 0x2 ∨ opcode = 0x9 ∨ opcode = 0xA) (hfits : FitsFrame payload)
    (hbytes : acceptedBytes w'.log = acceptedBytes w.log ++ encodeFrame opcode mask payload) :
    w'.Carries (frames ++ [⟨true, opcode, payload⟩]) := by
  obtain ⟨fs, hfs, hframes⟩ := h
  let f : SentFrame := ⟨opcode, mask, payload, known, encodeFrame_fits opcode mask hfits⟩
  refine ⟨fs ++ [f], ?_, ?_⟩
  · rw [hbytes, hfs, List.flatMap_append, List.flatMap_singleton]
    rfl
  · rw [List.map_append, hframes]
    rfl

theorem sendFrame_carries {w : Wire} {frames : List Frame} (hc : w.Carries frames)
    (hopen : 0 ≤ w.sockfd) {opcode : UInt8} {payload : List UInt8}
    (known : opcode = 0x1 ∨ opcode = 0x2 ∨ opcode = 0x9 ∨ opcode = 0xA) (hfits : FitsFrame payload)
    (h : (sendFrame opcode payload w).2.Unfailed) :
    (sendFrame opcode payload w).1 = true ∧
      (sendFrame opcode payload w).2.Carries (frames ++ [⟨true, opcode, payload⟩]) := by
  obtain ⟨hsent, hbytes⟩ := sendFrame_unfailed hopen h
  exact ⟨hsent, hc.snoc known hfits hbytes⟩

/-- A `drainSendQueue` in which no write fails sends the whole queue in order. -/
theorem drainSendQueue_carries {queue : List SendItem} {w : Wire} {frames : List Frame}
    (hc : w.Carries frames) (hopen : 0 ≤ w.sockfd)
    (hq : ∀ item ∈ queue, item.data.isEmpty = false ∧ FitsFrame item.data)
    (h : (drainSendQueue SendSide.sendItem queue w).2.Unfailed) :
    (drainSendQueue SendSide.sendItem queue w).1 = [] ∧
      (drainSendQueue SendSide.sendItem queue w).2.Carries
        (frames ++ queue.map SendItem.frame) := by
  induction queue generalizing w frames with
  | nil =>
    have hnil : drainSendQueue SendSide.sendItem [] w = ([], w) := drainLoop_nil 0 w
    rw [hnil]
    exact ⟨rfl, by simpa using hc⟩
  | cons item rest ih =>
    obtain ⟨hne, hfits⟩ := hq item List.mem_cons_self
    obtain ⟨sent, w', hsend⟩ : ∃ sent w', SendSide.sendItem item w = (sent, w') :=
      ⟨_, _, rfl⟩
    have hlog := sendFrame_log (if item.isBinary then 0x2 else 0x1) item.data w
    have hknown : (if item.isBinary then 0x2 else 0x1 : UInt8) = 0x1 ∨
        (if item.isBinary then 0x2 else 0x1 : UInt8) = 0x2 ∨
        (if item.isBinary then 0x2 else 0x1 : UInt8) = 0x9 ∨
        (if item.isBinary then 0x2 else 0x1 : UInt8) = 0xA := by
      cases item.isBinary with
      | true => exact Or.inr (Or.inl rfl)
      | false => exact Or.inl rfl
    have hlater : w'.log <+: (drainSendQueue SendSide.sendItem (item :: rest) w).2.log := by
      cases sent with
      | true =>
        have hstep : drainSendQueue SendSide.sendItem (item :: rest) w = _ :=
          drainLoop_sent (by omega) hne hsend
        rw [hstep]
        exact (drainLoop_log rest 0 w').1
      | false =>
        have hstep : drainSendQueue SendSide.sendItem (item :: rest) w = _ :=
          drainLoop_failed (by omega) hne hsend
        rw [hstep]
        exact (drainLoop_log (rest ++ [item]) 1 w').1
    have hsendFrame : sendFrame (if item.isBinary then 0x2 else 0x1) item.data w = (sent, w') :=
      hsend
    have hcarry := sendFrame_carries hc hopen hknown hfits
      (by rw [hsendFrame]; exact h.of_prefix hlater)
    rw [hsendFrame] at hcarry hlog
    obtain ⟨rfl, hc'⟩ := hcarry
    have hstep : drainSendQueue SendSide.sendItem (item :: rest) w =
        drainSendQueue SendSide.sendItem rest w' := drainLoop_sent (by omega) hne hsend
    rw [hstep] at h ⊢
    obtain ⟨hnil, hall⟩ := ih hc' (by rw [hlog.2]; exact hopen)
      (fun x hx => hq x (List.mem_cons_of_mem item hx)) h
    refine ⟨hnil, ?_⟩
    rw [List.append_assoc] at hall
    exact hall

/-- What the server reads of what the socket has taken. -/
def Wire.server (w : Wire) : Decoded UInt8 Frame := frameDecoder.decode (acceptedBytes w.log)

theorem Wire.Carries.server {w : Wire} {frames : List Frame} (h : w.Carries frames) :
    w.server = ⟨frames, [], false⟩ := by
  obtain ⟨fs, hfs, hframes⟩ := h
  have hnil : frameDecoder.next [] = none := rfl
  have hround := @Decoder.decode_flatMap _ _ frameDecoder _ SentFrame.encode SentFrame.frame [] fs
    (fun f _ more => f.nextFrame_encode more)
    (fun f _ => beq_eq_false_iff_ne.mpr f.opcode_ne_close) hnil
  rw [Wire.server, hfs, ← hframes]
  simpa using hround

end ModAudioStream
