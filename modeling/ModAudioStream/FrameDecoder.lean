import ModAudioStream.ProcessFrame
import Mathlib.Tactic.Common

namespace ModAudioStream

theorem byteAt_append {buf : List UInt8} {i : Nat} (more : List UInt8) (h : i < buf.length) :
    byteAt (buf ++ more) i = byteAt buf i := by
  simp only [byteAt, List.getD_eq_getElem?_getD, List.getElem?_append_left h]

theorem take_drop_append {buf : List UInt8} {i n : Nat} (more : List UInt8)
    (h : i + n ≤ buf.length) : ((buf ++ more).drop i).take n = (buf.drop i).take n := by
  rw [List.drop_append_of_le_length (by omega), List.take_append_of_le_length]
  rw [List.length_drop]
  omega

theorem readLength_bounds {buf : List UInt8} {headerSize N : Nat} (hb : 2 ≤ buf.length)
    (h : readLength buf = some (headerSize, N)) :
    2 ≤ headerSize ∧ headerSize ≤ 10 ∧ headerSize ≤ buf.length ∧ N < 2 ^ 64 := by
  unfold readLength at h
  simp only at h
  split at h
  · split at h
    · simp at h
    · obtain ⟨rfl, rfl⟩ := Prod.mk.inj (Option.some.inj h)
      have hlt := beNat_lt ((buf.drop 2).take 2)
      have hlen : ((buf.drop 2).take 2).length = 2 := by simp; omega
      rw [hlen] at hlt
      omega
  · split at h
    · split at h
      · simp at h
      · obtain ⟨rfl, rfl⟩ := Prod.mk.inj (Option.some.inj h)
        have hlt := beNat_lt ((buf.drop 2).take 8)
        have hlen : ((buf.drop 2).take 8).length = 8 := by simp; omega
        rw [hlen] at hlt
        omega
    · obtain ⟨rfl, rfl⟩ := Prod.mk.inj (Option.some.inj h)
      have hlt := (byteAt buf 1 &&& 0x7F).toNat_lt
      omega

theorem readLength_append {buf : List UInt8} {p : Nat × Nat} (more : List UInt8)
    (hb : 2 ≤ buf.length) (h : readLength buf = some p) : readLength (buf ++ more) = some p := by
  have h1 : byteAt (buf ++ more) 1 = byteAt buf 1 := byteAt_append more (by omega)
  unfold readLength at h ⊢
  simp only [h1, List.length_append] at h ⊢
  split at h
  next hn =>
    rw [if_pos hn]
    split at h
    · simp at h
    · rw [if_neg (by omega), take_drop_append more (by omega)]
      exact h
  next hn =>
    rw [if_neg hn]
    split at h
    next hn' =>
      rw [if_pos hn']
      split at h
      · simp at h
      · rw [if_neg (by omega), take_drop_append more (by omega)]
        exact h
    next hn' =>
      rw [if_neg hn']
      exact h

theorem readHead_bounds {buf : List UInt8} {h : Head} (hr : readHead buf = some h) :
    2 ≤ h.headerSize ∧ h.headerSize ≤ 14 ∧ h.headerSize ≤ buf.length ∧ h.N < 2 ^ 64 := by
  unfold readHead at hr
  split at hr
  · simp at hr
  · split at hr
    next => simp at hr
    next headerSize N hl =>
      have hb := readLength_bounds (by omega) hl
      simp only at hr
      split at hr
      · split at hr
        · simp at hr
        · cases Option.some.inj hr
          refine ⟨?_, ?_, ?_, hb.2.2.2⟩
          · show 2 ≤ headerSize + 4
            omega
          · show headerSize + 4 ≤ 14
            omega
          · show headerSize + 4 ≤ buf.length
            omega
      · cases Option.some.inj hr
        refine ⟨hb.1, ?_, hb.2.2.1, hb.2.2.2⟩
        show headerSize ≤ 14
        omega

theorem readHead_append {buf : List UInt8} {h : Head} (more : List UInt8)
    (hr : readHead buf = some h) : readHead (buf ++ more) = some h := by
  unfold readHead at hr
  split at hr
  · simp at hr
  next hb =>
    split at hr
    next => simp at hr
    next headerSize N hl =>
      have hle := readLength_append more (by omega) hl
      have h0 : byteAt (buf ++ more) 0 = byteAt buf 0 := byteAt_append more (by omega)
      have h1 : byteAt (buf ++ more) 1 = byteAt buf 1 := byteAt_append more (by omega)
      unfold readHead
      rw [if_neg (by simp only [List.length_append]; omega), hle]
      simp only [h0, h1, List.length_append] at hr ⊢
      split at hr
      next hm =>
        rw [if_pos hm]
        split at hr
        · simp at hr
        · rw [if_neg (by omega), byteAt_append more (by omega), byteAt_append more (by omega),
            byteAt_append more (by omega), byteAt_append more (by omega)]
          exact hr
      next hm =>
        rw [if_neg hm]
        exact hr

/-- The frame at the front of a buffer, with lengths as natural numbers. -/
def nextFrame (buf : List UInt8) : Option (Frame × List UInt8) :=
  (readHead buf).bind fun h =>
    if buf.length < h.headerSize + h.N then none
    else some (h.frame buf, buf.drop (h.headerSize + h.N))

theorem nextFrame_eq_some {buf rest : List UInt8} {f : Frame} :
    nextFrame buf = some (f, rest) ↔ ∃ h, readHead buf = some h ∧
      h.headerSize + h.N ≤ buf.length ∧ f = h.frame buf ∧
      rest = buf.drop (h.headerSize + h.N) := by
  unfold nextFrame
  rw [Option.bind_eq_some_iff]
  constructor
  · rintro ⟨h, hr, he⟩
    split at he
    · simp at he
    · obtain ⟨rfl, rfl⟩ := Prod.mk.inj (Option.some.inj he)
      exact ⟨h, hr, by omega, rfl, rfl⟩
  · rintro ⟨h, hr, hle, rfl, rfl⟩
    exact ⟨h, hr, by rw [if_neg (by omega)]⟩

theorem Head.frame_append {h : Head} {buf : List UInt8} (more : List UInt8)
    (hle : h.headerSize + h.N ≤ buf.length) : h.frame (buf ++ more) = h.frame buf := by
  simp only [Head.frame, Head.payload, take_drop_append more hle]

/-- The abstract receiver: whole frames, read off the stream in order, until a
Close frame. -/
def frameDecoder : Decoder UInt8 Frame where
  next := nextFrame
  stops f := f.opcode == 0x8
  shrinks := by
    intro buf f rest hn
    obtain ⟨h, hr, hle, _, rfl⟩ := nextFrame_eq_some.mp hn
    have hb := readHead_bounds hr
    rw [List.length_drop]
    omega
  stable := by
    intro buf f rest more hn
    obtain ⟨h, hr, hle, rfl, rfl⟩ := nextFrame_eq_some.mp hn
    refine nextFrame_eq_some.mpr
      ⟨h, readHead_append more hr, ?_, (h.frame_append more hle).symm, ?_⟩
    · rw [List.length_append]
      omega
    · rw [List.drop_append_of_le_length hle]

@[simp] theorem frameDecoder_next (buf : List UInt8) : frameDecoder.next buf = nextFrame buf := rfl

@[simp] theorem frameDecoder_stops (f : Frame) : frameDecoder.stops f = (f.opcode == 0x8) := rfl

end ModAudioStream
