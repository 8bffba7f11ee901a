import ModAudioStream.FrameDecoder

namespace ModAudioStream

/-- `MeetsHead buf h`: reading whole frames off `buf`, up to a Close frame, comes
to the head `h`. -/
inductive MeetsHead : List UInt8 → Head → Prop
  | here {buf : List UInt8} {h : Head} : readHead buf = some h → MeetsHead buf h
  | later {buf rest : List UInt8} {f : Frame} {h : Head} :
      nextFrame buf = some (f, rest) → f.opcode ≠ 0x8 → MeetsHead rest h → MeetsHead buf h

/-- No frame met in the stream has a total length that a `size_t` cannot hold. -/
def NoWrap (buf : List UInt8) : Prop :=
  ∀ h, MeetsHead buf h → h.headerSize + h.N < 2 ^ 64

theorem MeetsHead.append {buf : List UInt8} {h : Head} (more : List UInt8)
    (hm : MeetsHead buf h) : MeetsHead (buf ++ more) h := by
  induction hm with
  | here hr => exact MeetsHead.here (readHead_append more hr)
  | later hn ho _ ih => exact MeetsHead.later (frameDecoder.stable more hn) ho ih

theorem NoWrap.of_append {buf more : List UInt8} (h : NoWrap (buf ++ more)) : NoWrap buf :=
  fun hd hm => h hd (hm.append more)

theorem NoWrap.rest {buf rest : List UInt8} {f : Frame} (h : NoWrap buf)
    (hn : nextFrame buf = some (f, rest)) (ho : f.opcode ≠ 0x8) : NoWrap rest :=
  fun hd hm => h hd (MeetsHead.later hn ho hm)

theorem NoWrap.decode_rest {buf more : List UInt8} (h : NoWrap (buf ++ more))
    (hs : (frameDecoder.decode buf).stopped = false) :
    NoWrap ((frameDecoder.decode buf).rest ++ more) := by
  induction buf using Decoder.decode_cases frameDecoder with
  | pending buf hn => rwa [Decoder.decode_of_none hn]
  | stop buf f rest hn hstop => simp [Decoder.decode_of_stop hn hstop] at hs
  | item buf f rest hn hgo ih =>
    rw [Decoder.decode_of_next hn hgo] at hs ⊢
    have ho : f.opcode ≠ 0x8 := by simpa using hgo
    exact ih (h.rest (frameDecoder.stable more hn) ho) hs

theorem NoWrap.head {buf : List UInt8} {h : Head} (hw : NoWrap buf) (hr : readHead buf = some h) :
    h.headerSize + h.N < 2 ^ 64 :=
  hw h (MeetsHead.here hr)

theorem frameStep_of_pending {r : Receiver} (h : NoWrap r.rxbuf)
    (hn : nextFrame r.rxbuf = none) : frameStep r = .wait := by
  unfold frameStep
  cases hr : readHead r.rxbuf with
  | none => rfl
  | some hd =>
    have hlt := h.head hr
    have hshort : r.rxbuf.length < hd.headerSize + hd.N := by
      by_contra hle
      have := nextFrame_eq_some.mpr ⟨hd, hr, by omega, rfl, rfl⟩
      simp [hn] at this
    simp only [sizeT_of_lt hlt, if_pos hshort]

theorem frameStep_of_close {r : Receiver} {f : Frame} {rest : List UInt8} (h : NoWrap r.rxbuf)
    (hn : nextFrame r.rxbuf = some (f, rest)) (ho : f.opcode = 0x8) :
    ∃ buf, frameStep r = .close { r with rxbuf := buf, state := .closing, running := false } := by
  obtain ⟨hd, hr, hle, rfl, -⟩ := nextFrame_eq_some.mp hn
  have hlt := h.head hr
  have hop : hd.opcode = 0x8 := ho
  refine ⟨hd.unmask r.rxbuf, ?_⟩
  unfold frameStep
  rw [hr]
  simp only [sizeT_of_lt hlt]
  rw [if_neg (by omega), if_neg (by omega), if_pos hop]

theorem frameStep_of_frame {r : Receiver} {f : Frame} {rest : List UInt8}
    (h : ∀ hd, readHead r.rxbuf = some hd → hd.headerSize + hd.N < 2 ^ 64)
    (hn : nextFrame r.rxbuf = some (f, rest)) (ho : f.opcode ≠ 0x8) :
    frameStep r = .next { r with rxbuf := rest, out := r.out ++ r.handle f } := by
  obtain ⟨hd, hr, hle, rfl, rfl⟩ := nextFrame_eq_some.mp hn
  have hlt := h hd hr
  have hop : hd.opcode ≠ 0x8 := ho
  unfold frameStep
  rw [hr]
  simp only [sizeT_of_lt hlt]
  rw [if_neg (by omega), if_neg (by omega), if_neg hop]

/-- `r'` is `r` after it has taken in what the abstract receiver read. After a
Close frame nothing is said of the buffer, which keeps that frame. -/
structure Absorbs (r : Receiver) (d : Decoded UInt8 Frame) (r' : Receiver) : Prop where
  out : r'.out = r.out ++ d.items.flatMap r.handle
  state : r'.state = if d.stopped then .closing else r.state
  running : r'.running = if d.stopped then false else r.running
  onMessage : r'.onMessage = r.onMessage
  onBinary : r'.onBinary = r.onBinary
  rxbuf : d.stopped = false → r'.rxbuf = d.rest

theorem Receiver.handle_close {r : Receiver} {f : Frame} (ho : f.opcode = 0x8) :
    r.handle f = [] := by
  simp [Receiver.handle, ho]

theorem Receiver.handle_congr {r r' : Receiver} (hm : r'.onMessage = r.onMessage)
    (hb : r'.onBinary = r.onBinary) : r'.handle = r.handle := by
  funext f
  simp only [Receiver.handle, hm, hb]

/-- Where no length wraps, `processFrame` is the abstract receiver. -/
theorem processLoop_absorbs (fuel : Nat) {r : Receiver} (h : NoWrap r.rxbuf)
    (hf : r.rxbuf.length < fuel) :
    ∃ r', processLoop fuel r = .returned r' ∧ Absorbs r (frameDecoder.decode r.rxbuf) r' := by
  induction fuel generalizing r with
  | zero => omega
  | succ fuel ih =>
    have stay : nextFrame r.rxbuf = none → Absorbs r (frameDecoder.decode r.rxbuf) r := by
      intro hn
      rw [Decoder.decode_of_none hn]
      exact ⟨by simp, rfl, rfl, rfl, rfl, fun _ => rfl⟩
    unfold processLoop
    by_cases he : r.rxbuf.isEmpty
    · rw [if_pos he]
      have hnil : r.rxbuf = [] := List.isEmpty_iff.mp he
      exact ⟨r, rfl, stay (by rw [hnil]; rfl)⟩
    · rw [if_neg he]
      cases hn : nextFrame r.rxbuf with
      | none => exact ⟨r, by rw [frameStep_of_pending h hn], stay hn⟩
      | some p =>
        obtain ⟨f, rest⟩ := p
        by_cases ho : f.opcode = 0x8
        · obtain ⟨buf, hstep⟩ := frameStep_of_close h hn ho
          refine ⟨_, by rw [hstep], ?_⟩
          rw [Decoder.decode_of_stop hn (by simpa using ho)]
          exact ⟨by simp [Receiver.handle_close ho], rfl, rfl, rfl, rfl, by simp⟩
        · have hshrink := frameDecoder.shrinks hn
          obtain ⟨r', hr', ha⟩ := ih (r := { r with rxbuf := rest, out := r.out ++ r.handle f })
            (h.rest hn ho) (show rest.length < fuel by omega)
          refine ⟨r', by rw [frameStep_of_frame (fun _ => h.head) hn ho]; exact hr', ?_⟩
          rw [Decoder.decode_of_next hn (by simpa using ho)]
          refine ⟨?_, ha.state, ha.running, ha.onMessage, ha.onBinary, ha.rxbuf⟩
          rw [ha.out, List.flatMap_cons, ← List.append_assoc]
          rfl

theorem processFrame_absorbs {r : Receiver} (h : NoWrap r.rxbuf) :
    ∃ r', processFrame r = .returned r' ∧ Absorbs r (frameDecoder.decode r.rxbuf) r' :=
  processLoop_absorbs (r.rxbuf.length + 1) h (Nat.lt_succ_self _)

end ModAudioStream
