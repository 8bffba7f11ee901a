import ModAudioStream.RecvChunks

namespace ModAudioStream

/-- `Visits r s`: the loop of `processFrame`, entered with `r`, comes to the top
of its body with `s`. -/
inductive Visits : Receiver → Receiver → Prop
  | start {r : Receiver} : r.rxbuf ≠ [] → Visits r r
  | next {r s t : Receiver} : Visits r s → frameStep s = .next t → t.rxbuf ≠ [] → Visits r t

def PastLengthTest (s : Receiver) (h : Head) : Prop :=
  readHead s.rxbuf = some h ∧ ¬s.rxbuf.length < sizeT (h.headerSize + h.N)

theorem Visits.head {r s t : Receiver} (hne : r.rxbuf ≠ []) (hs : frameStep r = .next t)
    (hv : Visits t s) : Visits r s := by
  induction hv with
  | start ht => exact Visits.next (Visits.start hne) hs ht
  | next _ hstep hu ih => exact Visits.next ih hstep hu

theorem frameStep_next {s t : Receiver} (h : frameStep s = .next t) :
    ∃ hd, PastLengthTest s hd ∧
      ¬(s.touchesPayload hd = true ∧ s.rxbuf.length < hd.headerSize + hd.N) ∧
      hd.opcode ≠ 0x8 ∧
      t = { s with rxbuf := s.rxbuf.drop (sizeT (hd.headerSize + hd.N)),
                   out := s.out ++ s.handle (hd.frame s.rxbuf) } := by
  unfold frameStep at h
  split at h
  next => simp at h
  next hd hr =>
    simp only at h
    split at h
    · simp at h
    · split at h
      · simp at h
      · split at h
        · simp at h
        · exact ⟨hd, ⟨hr, by assumption⟩, by assumption, by assumption, (Iteration.next.inj h).symm⟩

theorem rxbuf_ne_nil_of_readHead {r : Receiver} {h : Head} (hr : readHead r.rxbuf = some h) :
    r.rxbuf ≠ [] := by
  have hb := readHead_bounds hr
  exact List.ne_nil_of_length_pos (by omega)

/-- A length that wraps always passes the test: the sum comes out below the
header size. -/
theorem sizeT_wrapped_lt {buf : List UInt8} {h : Head} (hr : readHead buf = some h)
    (hw : 2 ^ 64 ≤ h.headerSize + h.N) :
    sizeT (h.headerSize + h.N) = h.headerSize + h.N - 2 ^ 64 ∧
      sizeT (h.headerSize + h.N) < buf.length := by
  have hb := readHead_bounds hr
  unfold sizeT
  omega

theorem Visits.length_le {r s : Receiver} (hv : Visits r s) :
    s.rxbuf.length ≤ r.rxbuf.length := by
  induction hv with
  | start => exact Nat.le_refl _
  | next _ hs _ ih =>
    obtain ⟨hd, _, _, _, rfl⟩ := frameStep_next hs
    simp only [List.length_drop]
    omega

/-- Past the length test, header and payload lie inside the buffer: so do all
indices the rest of the iteration uses. -/
def InBounds (r : Receiver) : Prop :=
  ∀ s h, Visits r s → PastLengthTest s h → h.headerSize + h.N ≤ s.rxbuf.length

theorem InBounds.next {r t : Receiver} (h : InBounds r) (hne : r.rxbuf ≠ [])
    (hs : frameStep r = .next t) : InBounds t :=
  fun s hd hv hp => h s hd (hv.head hne hs) hp

theorem InBounds.head {r : Receiver} {h : Head} (hin : InBounds r)
    (hsize : r.rxbuf.length < 2 ^ 64) (hr : readHead r.rxbuf = some h) :
    h.headerSize + h.N < 2 ^ 64 := by
  by_contra hw
  have hlt := (sizeT_wrapped_lt hr (by omega)).2
  have hle := hin r h (Visits.start (rxbuf_ne_nil_of_readHead hr)) ⟨hr, by omega⟩
  omega

theorem noWrap_of_inBounds {r : Receiver} (hsize : r.rxbuf.length < 2 ^ 64) (hin : InBounds r) :
    NoWrap r.rxbuf := by
  intro h hm
  generalize hbuf : r.rxbuf = buf at hm
  induction hm generalizing r with
  | here hr => exact hin.head hsize (hbuf ▸ hr)
  | later hn ho _ ih =>
    subst hbuf
    obtain ⟨hd, hr, _, _, _⟩ := nextFrame_eq_some.mp hn
    have hstep := frameStep_of_frame (fun _ => hin.head hsize) hn ho
    have hshrink := frameDecoder.shrinks hn
    exact ih (Nat.lt_trans hshrink hsize) (hin.next (rxbuf_ne_nil_of_readHead hr) hstep) rfl

theorem Visits.noWrap {r s : Receiver} (hv : Visits r s) (h : NoWrap r.rxbuf) :
    NoWrap s.rxbuf := by
  induction hv with
  | start => exact h
  | next _ hs _ ih =>
    obtain ⟨hd, ⟨hr, hlen⟩, _, ho, rfl⟩ := frameStep_next hs
    have hlt := ih.head hr
    rw [sizeT_of_lt hlt] at hlen ⊢
    exact ih.rest (nextFrame_eq_some.mpr ⟨hd, hr, by omega, rfl, rfl⟩) ho

theorem inBounds_of_noWrap {r : Receiver} (h : NoWrap r.rxbuf) : InBounds r := by
  intro s hd hv hp
  have hlt := (hv.noWrap h).head hp.1
  have hlen := hp.2
  rw [sizeT_of_lt hlt] at hlen
  omega

/-- The length test keeps `processFrame` inside the buffer exactly on the streams
in which no frame length wraps around. -/
theorem inBounds_iff_noWrap {r : Receiver} (hsize : r.rxbuf.length < 2 ^ 64) :
    (InBounds r ↔ NoWrap r.rxbuf) ∧ (InBounds r → processFrame r ≠ .outside) := by
  refine ⟨⟨noWrap_of_inBounds hsize, inBounds_of_noWrap⟩, fun hin => ?_⟩
  obtain ⟨r', hr', -⟩ := processFrame_absorbs (noWrap_of_inBounds hsize hin)
  simp [hr']

theorem inBounds_iff_noWrap_cut_text :
    (InBounds ⟨[0x81, 0x05, 0x68], .opened, true, true, true, []⟩ ↔
      NoWrap [0x81, 0x05, 0x68]) ∧
    (InBounds ⟨[0x81, 0x05, 0x68], .opened, true, true, true, []⟩ →
      processFrame ⟨[0x81, 0x05, 0x68], .opened, true, true, true, []⟩ ≠ .outside) :=
  @inBounds_iff_noWrap ⟨[0x81, 0x05, 0x68], .opened, true, true, true, []⟩ (by decide)

/-- A ten-byte text frame that announces `2 ^ 64 - 1` bytes passes the length
test, and its payload is read past the end of the buffer. -/
theorem not_inBounds_wrapped_text :
    ¬InBounds ⟨[0x81, 0x7F, 0xFF, 0xFF, 0xFF, 0xFF, 0xFF, 0xFF, 0xFF, 0xFF],
        .opened, true, true, true, []⟩ ∧
      processFrame ⟨[0x81, 0x7F, 0xFF, 0xFF, 0xFF, 0xFF, 0xFF, 0xFF, 0xFF, 0xFF],
        .opened, true, true, true, []⟩ = .outside := by
  refine ⟨fun hin => ?_, by decide⟩
  have hle := hin _ ⟨true, 0x1, false, ⟨0, 0, 0, 0⟩, 10, 2 ^ 64 - 1⟩
    (Visits.start (by decide)) ⟨by decide, by decide⟩
  exact absurd hle (by decide)

end ModAudioStream
