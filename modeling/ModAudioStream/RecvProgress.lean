import ModAudioStream.RecvBounds

namespace ModAudioStream

/-- The iteration at `s` returns, or removes at least two bytes from the front. -/
def StepProgresses (s : Receiver) : Prop :=
  frameStep s = .wait ∨ (∃ t, frameStep s = .close t) ∨
    ∃ t k, frameStep s = .next t ∧ 2 ≤ k ∧ k ≤ s.rxbuf.length ∧ t.rxbuf = s.rxbuf.drop k

def Progresses (r : Receiver) : Prop :=
  (∃ r', processFrame r = .returned r') ∧ ∀ s, Visits r s → StepProgresses s

/-- The length of the head `h` wraps around, and the iteration then reaches for
its payload or erases fewer than two bytes. -/
def Receiver.Stalls (s : Receiver) (h : Head) : Prop :=
  2 ^ 64 ≤ h.headerSize + h.N ∧
    (s.touchesPayload h = true ∨ (h.opcode ≠ 0x8 ∧ h.headerSize + h.N < 2 ^ 64 + 2))

theorem frameStep_of_past {s : Receiver} {h : Head} (hp : PastLengthTest s h) :
    frameStep s =
      if s.touchesPayload h ∧ s.rxbuf.length < h.headerSize + h.N then .outside
      else if h.opcode = 0x8 then
        .close { s with rxbuf := h.unmask s.rxbuf, state := .closing, running := false }
      else
        .next { s with rxbuf := s.rxbuf.drop (sizeT (h.headerSize + h.N)),
                       out := s.out ++ s.handle (h.frame s.rxbuf) } := by
  unfold frameStep
  rw [hp.1]
  simp only [if_neg hp.2]

theorem frameStep_of_not_past {s : Receiver} (hp : ∀ h, ¬PastLengthTest s h) :
    frameStep s = .wait := by
  unfold frameStep
  split
  next => rfl
  next h hr =>
    have hlt : s.rxbuf.length < sizeT (h.headerSize + h.N) := by
      by_contra hn
      exact hp h ⟨hr, hn⟩
    simp only [if_pos hlt]

theorem stepProgresses_of_not_stalls {s : Receiver}
    (hno : ∀ h, readHead s.rxbuf = some h → ¬s.Stalls h) : StepProgresses s := by
  by_cases hp : ∃ h, PastLengthTest s h
  · obtain ⟨h, hp⟩ := hp
    have hb := readHead_bounds hp.1
    have hstall := hno h hp.1
    have hlen := hp.2
    have hstep := frameStep_of_past hp
    have hinside : ¬(s.touchesPayload h = true ∧ s.rxbuf.length < h.headerSize + h.N) := by
      rintro ⟨ht, hout⟩
      by_cases hw : 2 ^ 64 ≤ h.headerSize + h.N
      · exact hstall ⟨hw, Or.inl ht⟩
      · rw [sizeT_of_lt (by omega)] at hlen
        omega
    rw [if_neg hinside] at hstep
    by_cases ho : h.opcode = 0x8
    · rw [if_pos ho] at hstep
      exact Or.inr (Or.inl ⟨_, hstep⟩)
    · rw [if_neg ho] at hstep
      refine Or.inr (Or.inr ⟨_, sizeT (h.headerSize + h.N), hstep, ?_, by omega, rfl⟩)
      by_cases hw : 2 ^ 64 ≤ h.headerSize + h.N
      · rw [(sizeT_wrapped_lt hp.1 hw).1]
        have : ¬h.headerSize + h.N < 2 ^ 64 + 2 := fun hs => hstall ⟨hw, Or.inr ⟨ho, hs⟩⟩
        omega
      · rw [sizeT_of_lt (by omega)]
        omega
  · exact Or.inl (frameStep_of_not_past fun h hh => hp ⟨h, hh⟩)

theorem not_stepProgresses_of_stalls {s : Receiver} {h : Head} (hsize : s.rxbuf.length < 2 ^ 64)
    (hr : readHead s.rxbuf = some h) (hstall : s.Stalls h) : ¬StepProgresses s := by
  obtain ⟨hw, hcase⟩ := hstall
  obtain ⟨htotal, hlt⟩ := sizeT_wrapped_lt hr hw
  have hstep := frameStep_of_past (⟨hr, by omega⟩ : PastLengthTest s h)
  by_cases ht : s.touchesPayload h = true
  · rw [if_pos ⟨ht, by omega⟩] at hstep
    rintro (hwait | ⟨t, hclose⟩ | ⟨t, k, hnext, -⟩)
    · simp [hstep] at hwait
    · simp [hstep] at hclose
    · simp [hstep] at hnext
  · obtain ⟨ho, hsmall⟩ := hcase.resolve_left ht
    rw [if_neg (fun hh => ht hh.1), if_neg ho] at hstep
    rintro (hwait | ⟨t, hclose⟩ | ⟨t, k, hnext, hk, hkl, hdrop⟩)
    · simp [hstep] at hwait
    · simp [hstep] at hclose
    · rw [hstep] at hnext
      have hbuf : s.rxbuf.drop (sizeT (h.headerSize + h.N)) = s.rxbuf.drop k := by
        rw [← hdrop, ← Iteration.next.inj hnext]
      have hlen := congrArg List.length hbuf
      simp only [List.length_drop] at hlen
      omega

theorem processLoop_returns (fuel : Nat) {r : Receiver} (hf : r.rxbuf.length < fuel)
    (h : ∀ s, Visits r s → StepProgresses s) : ∃ r', processLoop fuel r = .returned r' := by
  induction fuel generalizing r with
  | zero => omega
  | succ fuel ih =>
    unfold processLoop
    by_cases he : r.rxbuf.isEmpty
    · exact ⟨r, by rw [if_pos he]⟩
    · have hne : r.rxbuf ≠ [] := fun hnil => he (List.isEmpty_iff.mpr hnil)
      rw [if_neg he]
      rcases h r (Visits.start hne) with hwait | ⟨t, hclose⟩ | ⟨t, k, hnext, hk, hkl, hdrop⟩
      · exact ⟨r, by rw [hwait]⟩
      · exact ⟨t, by rw [hclose]⟩
      · rw [hnext]
        have hlen : t.rxbuf.length = r.rxbuf.length - k := by rw [hdrop, List.length_drop]
        exact ih (by omega) fun s hv => h s (hv.head hne hnext)

theorem Receiver.handle_of_not_touches {r : Receiver} {h : Head} (buf : List UInt8)
    (ht : r.touchesPayload h = false) : r.handle (h.frame buf) = [] := by
  simp only [Receiver.touchesPayload, Bool.or_eq_false_iff, Bool.and_eq_false_iff,
    beq_eq_false_iff_ne] at ht
  obtain ⟨⟨⟨_, htext⟩, hbin⟩, hping⟩ := ht
  unfold Receiver.handle
  rw [if_neg]
  · split
    next hb =>
      rw [if_neg]
      intro hon
      rcases hbin with (hne | hfin) | hoff
      · exact hne hb.1
      · exact absurd hb.2 (by simp [Head.frame, hfin])
      · simp [hon] at hoff
    next => exact if_neg hping
  · rintro ⟨ho, hf⟩
    rcases htext with hne | hfin
    · exact hne ho
    · exact absurd hf (by simp [Head.frame, hfin])

theorem frameStep_next_shrinks {s t : Receiver} (hsize : s.rxbuf.length < 2 ^ 64)
    (h : frameStep s = .next t) : t.rxbuf.length < s.rxbuf.length ∨ t = s := by
  obtain ⟨hd, ⟨hr, hlen⟩, htouch, ho, rfl⟩ := frameStep_next h
  have hb := readHead_bounds hr
  by_cases hz : sizeT (hd.headerSize + hd.N) = 0
  · right
    have hw : 2 ^ 64 ≤ hd.headerSize + hd.N := by
      by_contra hn
      rw [sizeT_of_lt (by omega)] at hz
      omega
    have hquiet : s.touchesPayload hd = false :=
      Bool.eq_false_iff.mpr fun ht => htouch ⟨ht, by omega⟩
    rw [hz, Receiver.handle_of_not_touches _ hquiet, List.drop_zero, List.append_nil]
  · left
    simp only [List.length_drop]
    omega

/-- A loop that outlasts the length of its buffer never ends. -/
theorem processLoop_budget (fuel : Nat) {r : Receiver} (hsize : r.rxbuf.length < 2 ^ 64)
    (hf : r.rxbuf.length < fuel) (hspin : processLoop fuel r = .spinning) (n : Nat) :
    processLoop n r = .spinning := by
  induction fuel generalizing r n with
  | zero => omega
  | succ fuel ih =>
    unfold processLoop at hspin
    by_cases he : r.rxbuf.isEmpty
    · simp [he] at hspin
    · rw [if_neg he] at hspin
      cases hs : frameStep r with
      | wait => simp [hs] at hspin
      | outside => simp [hs] at hspin
      | close t => simp [hs] at hspin
      | next t =>
        rw [hs] at hspin
        rcases frameStep_next_shrinks hsize hs with hlt | rfl
        · cases n with
          | zero => rfl
          | succ n =>
            unfold processLoop
            rw [if_neg he, hs]
            exact ih (by omega) (by omega) hspin n
        · induction n with
          | zero => rfl
          | succ n ihn =>
            unfold processLoop
            rw [if_neg he, hs]
            exact ihn

/-- `processFrame` terminates with progress in every iteration exactly when no
iteration meets a head that stalls it. -/
theorem progresses_iff_not_stalls {r : Receiver} (hsize : r.rxbuf.length < 2 ^ 64) :
    Progresses r ↔
      ∀ s h, Visits r s → readHead s.rxbuf = some h → ¬s.Stalls h := by
  constructor
  · rintro ⟨_, hstep⟩ s h hv hr hstall
    have hlen := hv.length_le
    exact not_stepProgresses_of_stalls (by omega) hr hstall (hstep s hv)
  · intro hno
    have hstep : ∀ s, Visits r s → StepProgresses s :=
      fun s hv => stepProgresses_of_not_stalls fun h hr => hno s h hv hr
    exact ⟨processLoop_returns (r.rxbuf.length + 1) (Nat.lt_succ_self _) hstep, hstep⟩

theorem progresses_iff_not_stalls_cut_header :
    Progresses ⟨[0x8A], .opened, true, true, true, []⟩ ↔
      ∀ s h, Visits ⟨[0x8A], .opened, true, true, true, []⟩ s →
        readHead s.rxbuf = some h → ¬s.Stalls h :=
  @progresses_iff_not_stalls ⟨[0x8A], .opened, true, true, true, []⟩ (by decide)

/-- A ten-byte pong that announces `2 ^ 64 - 10` bytes is erased by zero bytes,
for ever. -/
theorem not_progresses_wrapped_pong :
    ¬Progresses ⟨[0x8A, 0x7F, 0xFF, 0xFF, 0xFF, 0xFF, 0xFF, 0xFF, 0xFF, 0xF6],
        .opened, true, true, true, []⟩ ∧
      ∀ n, processLoop n ⟨[0x8A, 0x7F, 0xFF, 0xFF, 0xFF, 0xFF, 0xFF, 0xFF, 0xFF, 0xF6],
        .opened, true, true, true, []⟩ = .spinning := by
  have hspin : processLoop 11 ⟨[0x8A, 0x7F, 0xFF, 0xFF, 0xFF, 0xFF, 0xFF, 0xFF, 0xFF, 0xF6],
      .opened, true, true, true, []⟩ = .spinning := by decide
  refine ⟨?_, fun n => processLoop_budget 11 (by decide) (by decide) hspin n⟩
  rintro ⟨⟨r', hr'⟩, -⟩
  exact absurd (hr'.symm.trans hspin) (by simp)

end ModAudioStream
