import ModAudioStream.Streams

namespace ModAudioStream

namespace StartCommandPc

/-- Past the check of the channel private, on the way to setting it. -/
def past : StartCommandPc → Bool
  | .preAnswer => true
  | .create => true
  | .init => true
  | .addBug => true
  | .setPrivate => true
  | _ => false

/-- No bug has been added. -/
def bugless : StartCommandPc → Bool
  | .setPrivate => false
  | .done => false
  | _ => true

/-- The command holds the streamer that it has created. -/
def holds : StartCommandPc → Bool
  | .init => true
  | .addBug => true
  | .setPrivate => true
  | .destroy => true
  | _ => false

end StartCommandPc

namespace StopCommandPc

/-- The stream that is claimed, and still attached with its streamer. -/
def claimed : StopCommandPc → Option Nat
  | .removeBug i => some i
  | .closeRelease _ j => some j
  | _ => none

/-- The command has claimed `w`, and not yet released its streamer. -/
def holds (pc : StopCommandPc) (w : Nat) : Prop :=
  match pc with
  | .removeBug i => w = i
  | .close i => w = i
  | .closeLock i _ => w = i
  | .closeRelease i j => w = i ∨ w = j
  | .release i => w = i
  | _ => False

/-- The command has fetched `w` and not yet locked it. -/
def fetched : StopCommandPc → Option Nat
  | .lock i => some i
  | .closeLock _ j => some j
  | _ => none

theorem holds_of_claimed {pc : StopCommandPc} {w : Nat} (h : pc.claimed = some w) :
    pc.holds w := by
  cases pc with
  | removeBug i => exact (Option.some.inj h).symm
  | closeRelease i j => exact Or.inr (Option.some.inj h).symm
  | _ => cases h

end StopCommandPc

namespace Streams

/-- One bug at most is attached with a live streamer, and every live streamer is that of the
channel private, or held by a command that has not returned; once no command is running, all
are that of the channel private. -/
def Single (s : Streams) : Prop :=
  (∀ i j, s.attached i = true → s.live i = true → s.attached j = true → s.live j = true → i = j) ∧
    ∀ i, s.live i = true →
      s.bug = some i ∨ (s.starts i).holds = true ∨ ∃ k, (s.stops k).holds i

/-- The session is taken by `w`: it is being started, is the channel private, or is being
stopped with its bug still attached. -/
def Taken (s : Streams) (w : Nat) : Prop :=
  (s.starts w).past = true ∨ s.bug = some w ∨ ∃ k, (s.stops k).claimed = some w

/-- A start command passes its check while the session is taken, or fails after it has
created its streamer, which nobody holds then. -/
def Crosses (s : Streams) : StreamsAct → Prop
  | .start i ok => (s.starts i = .check ∧ s.bug = none ∧ ∃ w, s.Taken w) ∨
      (s.starts i = .init ∧ ok = false)
  | .stop _ => False

theorem exists_update_iff {β : Type*} {p : β → Prop} {f : Nat → β} {k : Nat} {b : β}
    (hk : ¬p (f k)) : (∃ k', p (Function.update f k b k')) ↔ p b ∨ ∃ k', p (f k') := by
  rw [Function.exists_update_iff f fun _ => p]
  refine or_congr_right ⟨fun ⟨k', _, hp⟩ => ⟨k', hp⟩, fun ⟨k', hp⟩ => ⟨k', ?_, hp⟩⟩
  rintro rfl
  exact hk hp

/-- What holds as long as no command crosses another. -/
structure Sole (s : Streams) : Prop where
  unique : ∀ v w, s.Taken v → s.Taken w → v = w
  attached : ∀ i, s.attached i = true → s.live i = true → s.Taken i
  building : ∀ i, (s.starts i).holds = true → s.live i = true
  present : ∀ i, s.starts i = .setPrivate ∨ s.bug = some i ∨
    (∃ k, (s.stops k).claimed = some i) → s.attached i = true ∧ s.live i = true
  unattached : ∀ i, s.attached i = true → s.starts i = .setPrivate ∨ s.starts i = .done
  published : ∀ i, s.bug = some i → s.starts i = .done ∧ s.cleanupStarted i = false
  unclaimed : ∀ i, s.starts i = .done → s.cleanupStarted i = false → s.bug = some i
  fetched : ∀ k i, (s.stops k).fetched = some i → s.starts i = .done
  cleaned : ∀ i, s.cleanupStarted i = true → s.starts i = .done
  holder : ∀ k i, (s.stops k).holds i → s.cleanupStarted i = true
  oneHolder : ∀ k k' i, (s.stops k).holds i → (s.stops k').holds i → k = k'
  live : ∀ i, s.live i = true →
    s.bug = some i ∨ (s.starts i).holds = true ∨ ∃ k, (s.stops k).holds i

theorem single_of_sole {s : Streams} (h : s.Sole) : s.Single :=
  ⟨fun i j hai hli haj hlj => h.unique i j (h.attached i hai hli) (h.attached j haj hlj), h.live⟩

theorem sole_fresh : fresh.Sole := by
  constructor <;> simp [fresh, Taken, StartCommandPc.past, StartCommandPc.holds,
    StopCommandPc.claimed, StopCommandPc.holds, StopCommandPc.fetched]

/-- A start command moves on, short of adding its bug, and no stream changes. -/
theorem sole_startTo {s : Streams} (h : s.Sole) {i : Nat} {old pc : StartCommandPc}
    (hpc : s.starts i = old) (hold : old.bugless = true) (hnew : pc.bugless = true)
    (hpast : pc.past = true → old.past = true ∨ ∀ w, ¬s.Taken w)
    (hholds : pc.holds = old.holds) : (s.startTo i pc).Sole := by
  subst hpc
  have hset : s.starts i ≠ .setPrivate ∧ s.starts i ≠ .done := by
    constructor <;> intro hpc <;> rw [hpc] at hold <;> cases hold
  have hset' : pc ≠ .setPrivate ∧ pc ≠ .done := by
    constructor <;> rintro rfl <;> cases hnew
  have hat : ∀ w, s.attached w = true → w ≠ i := by
    rintro w hw rfl
    rcases h.unattached w hw with hpc | hpc
    · exact hset.1 hpc
    · exact hset.2 hpc
  have hdone : ∀ w, s.starts w = .done → w ≠ i := by
    rintro w hw rfl
    exact hset.2 hw
  have hne : ∀ w, w ≠ i → (s.startTo i pc).starts w = s.starts w := fun w hw =>
    Function.update_of_ne hw _ _
  have heq : (s.startTo i pc).starts i = pc := Function.update_self ..
  have hkept : ∀ w, w ≠ i → ((s.startTo i pc).Taken w ↔ s.Taken w) := fun w hw => by
    simp only [Taken, hne w hw]
    rfl
  have htaken : ∀ w, (s.startTo i pc).Taken w → s.Taken w ∨ w = i ∧ pc.past = true := by
    intro w hw
    by_cases hwi : w = i
    · subst hwi
      rcases hw with hw | hw | hw
      · exact Or.inr ⟨rfl, by rwa [heq] at hw⟩
      · exact Or.inl (Or.inr (Or.inl hw))
      · exact Or.inl (Or.inr (Or.inr hw))
    · exact Or.inl ((hkept w hwi).mp hw)
  refine ⟨?_, ?_, ?_, ?_, ?_, ?_, ?_, ?_, ?_, h.holder, h.oneHolder, ?_⟩
  · intro v w hv hw
    rcases htaken v hv with hv' | ⟨hvi, hp⟩ <;> rcases htaken w hw with hw' | ⟨hwi, hp'⟩
    · exact h.unique v w hv' hw'
    · subst hwi
      rcases hpast hp' with hi | hi
      · exact h.unique v w hv' (Or.inl hi)
      · exact absurd hv' (hi v)
    · subst hvi
      rcases hpast hp with hi | hi
      · exact h.unique v w (Or.inl hi) hw'
      · exact absurd hw' (hi w)
    · exact hvi.trans hwi.symm
  · intro w ha hl
    exact (hkept w (hat w ha)).mpr (h.attached w ha hl)
  · intro w hw
    refine h.building w ?_
    by_cases hwi : w = i
    · subst hwi
      rwa [heq, hholds] at hw
    · rwa [hne w hwi] at hw
  · intro w hw
    refine h.present w (hw.imp_left fun hpc => ?_)
    by_cases hwi : w = i
    · subst hwi
      exact absurd (heq.symm.trans hpc) hset'.1
    · rwa [hne w hwi] at hpc
  · intro w hw
    rw [hne w (hat w hw)]
    exact h.unattached w hw
  · intro w hw
    have hpub := h.published w hw
    rw [hne w (hdone w hpub.1)]
    exact hpub
  · intro w hw hc
    have hwi : w ≠ i := by
      rintro rfl
      exact hset'.2 (heq.symm.trans hw)
    exact h.unclaimed w (by rwa [hne w hwi] at hw) hc
  · intro k w hw
    have hd := h.fetched k w hw
    rwa [hne w (hdone w hd)]
  · intro w hw
    have hd := h.cleaned w hw
    rwa [hne w (hdone w hd)]
  · intro w hw
    by_cases hwi : w = i
    · subst hwi
      rw [heq, hholds]
      exact h.live w hw
    · rw [hne w hwi]
      exact h.live w hw

/-- A start command creates its streamer. -/
theorem sole_create {s : Streams} (h : s.Sole) {i : Nat} (hpc : s.starts i = .create) :
    ({ s with live := Function.update s.live i true }.startTo i .init).Sole := by
  have hat : s.attached i ≠ true := fun ha => by
    have hi := h.unattached i ha
    simp [hpc] at hi
  have htaken : ∀ w, ({ s with live := Function.update s.live i true }.startTo i .init).Taken w ↔
      s.Taken w := by
    intro w
    by_cases hw : w = i
    · subst hw
      simp [Taken, startTo, hpc, StartCommandPc.past]
    · simp [Taken, startTo, hw]
  obtain ⟨h1, h2, h3, h4, h5, h6, h7, h8, h9, h10, h11, h12⟩ := h
  refine ⟨by simpa only [htaken] using h1, ?_, ?_, ?_, ?_, ?_, ?_, ?_, ?_, h10, h11, ?_⟩
  · intro w ha hl
    have hw : w ≠ i := fun hw => hat (hw ▸ ha)
    exact (htaken w).mpr (h2 w ha (by simpa [startTo, hw] using hl))
  all_goals
    simp only [startTo, Function.update_apply]
    grind [StartCommandPc.holds]

/-- A start command adds its bug. -/
theorem sole_addBug {s : Streams} (h : s.Sole) {i : Nat} (hpc : s.starts i = .addBug) :
    ({ s with attached := Function.update s.attached i true }.startTo i .setPrivate).Sole := by
  have htaken : ∀ w, ({ s with attached := Function.update s.attached i true }.startTo i
      .setPrivate).Taken w ↔ s.Taken w := by
    intro w
    by_cases hw : w = i
    · subst hw
      simp [Taken, startTo, hpc, StartCommandPc.past]
    · simp [Taken, startTo, hw]
  have hi : s.Taken i := Or.inl (by rw [hpc]; rfl)
  obtain ⟨h1, h2, h3, h4, h5, h6, h7, h8, h9, h10, h11, h12⟩ := h
  refine ⟨by simpa only [htaken] using h1, ?_, ?_, ?_, ?_, ?_, ?_, ?_, ?_, h10, h11, ?_⟩
  · intro w ha hl
    by_cases hw : w = i
    · exact (htaken w).mpr (hw ▸ hi)
    · exact (htaken w).mpr (h2 w (by simpa [startTo, hw] using ha) hl)
  all_goals
    simp only [startTo, Function.update_apply]
    grind [StartCommandPc.holds]

/-- A start command sets the channel private. -/
theorem sole_setPrivate {s : Streams} (h : s.Sole) {i : Nat} (hpc : s.starts i = .setPrivate) :
    ({ s with bug := some i }.startTo i .done).Sole := by
  have hi : s.Taken i := Or.inl (by rw [hpc]; rfl)
  have hbug : ∀ w, s.bug ≠ some w := fun w hw => by
    have hd := (h.published w hw).1
    rw [h.unique w i (Or.inr (Or.inl hw)) hi, hpc] at hd
    cases hd
  have htaken : ∀ w, ({ s with bug := some i }.startTo i .done).Taken w ↔ s.Taken w := by
    intro w
    by_cases hw : w = i
    · subst hw
      simp [Taken, startTo, hpc, StartCommandPc.past]
    · simp [Taken, startTo, hw, hbug, Ne.symm hw]
  obtain ⟨h1, h2, h3, h4, h5, h6, h7, h8, h9, h10, h11, h12⟩ := h
  refine ⟨by simpa only [htaken] using h1, ?_, ?_, ?_, ?_, ?_, ?_, ?_, ?_, h10, h11, ?_⟩
  · intro w ha hl
    exact (htaken w).mpr (h2 w ha hl)
  all_goals
    simp only [startTo, Function.update_apply]
    grind [StartCommandPc.holds]

/-- A start command that could not add its bug disconnects its streamer. -/
theorem sole_destroy {s : Streams} (h : s.Sole) {i : Nat} (hpc : s.starts i = .destroy) :
    ((s.free i).startTo i .failed).Sole := by
  have htaken : ∀ w, ((s.free i).startTo i .failed).Taken w ↔ s.Taken w := by
    intro w
    by_cases hw : w = i
    · subst hw
      simp [Taken, startTo, free, hpc, StartCommandPc.past]
    · simp [Taken, startTo, free, hw]
  obtain ⟨h1, h2, h3, h4, h5, h6, h7, h8, h9, h10, h11, h12⟩ := h
  refine ⟨by simpa only [htaken] using h1, ?_, ?_, ?_, ?_, ?_, ?_, ?_, ?_, h10, h11, ?_⟩
  · intro w ha hl
    have hw : w ≠ i := by
      rintro rfl
      simp [startTo, free] at hl
    exact (htaken w).mpr (h2 w ha (by simpa [startTo, free, hw] using hl))
  all_goals
    simp only [startTo, free, Function.update_apply]
    grind [StartCommandPc.holds]

theorem sole_startStep {s : Streams} (h : s.Sole) {i : Nat} {ok : Bool}
    (hcross : ¬s.Crosses (.start i ok)) : (s.startStep i ok).Sole := by
  unfold startStep
  split
  case h_1 hpc =>
    split
    case isTrue hbug =>
      refine sole_startTo h hpc rfl rfl (fun _ => Or.inr fun w hw => ?_) rfl
      exact hcross (Or.inl ⟨hpc, hbug, w, hw⟩)
    case isFalse => exact sole_startTo h hpc rfl rfl nofun rfl
  case h_2 hpc =>
    cases ok
    · exact sole_startTo h hpc rfl rfl nofun rfl
    · exact sole_startTo h hpc rfl rfl (fun _ => Or.inl rfl) rfl
  case h_3 hpc => exact sole_create h hpc
  case h_4 hpc =>
    cases ok
    · exact absurd (Or.inr ⟨hpc, rfl⟩) hcross
    · exact sole_startTo h hpc rfl rfl (fun _ => Or.inl rfl) rfl
  case h_5 hpc =>
    cases ok
    · exact sole_startTo h hpc rfl rfl nofun rfl
    · exact sole_addBug h hpc
  case h_6 hpc => exact sole_setPrivate h hpc
  case h_7 hpc => exact sole_destroy h hpc
  case h_8 | h_9 => exact h

end Streams

end ModAudioStream
