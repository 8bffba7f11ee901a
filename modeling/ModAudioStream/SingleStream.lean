import ModAudioStream.SoleStream

namespace ModAudioStream

namespace Streams

/-- A stop command moves on without claiming or releasing a stream. -/
theorem sole_stopTo {s : Streams} (h : s.Sole) {k : Nat} {old pc : StopCommandPc}
    (hpc : s.stops k = old) (hold : old.claimed = none) (hnew : pc.claimed = none)
    (hholds : ∀ w, pc.holds w ↔ old.holds w)
    (hfetched : ∀ w, pc.fetched = some w → s.starts w = .done) : (s.stopTo k pc).Sole := by
  subst hpc
  have hclaimed : ∀ w, (∃ k', ((s.stopTo k pc).stops k').claimed = some w) ↔
      ∃ k', (s.stops k').claimed = some w := fun w => by
    refine (exists_update_iff (p := fun pc : StopCommandPc => pc.claimed = some w) ?_).trans ?_
    · simp [hold]
    · simp [hnew]
  have hheld : ∀ k' w, ((s.stopTo k pc).stops k').holds w ↔ (s.stops k').holds w := by
    intro k' w
    by_cases hk : k' = k
    · subst hk
      simpa [stopTo] using hholds w
    · simp [stopTo, hk]
  have htaken : ∀ w, (s.stopTo k pc).Taken w ↔ s.Taken w := fun w =>
    or_congr_right (or_congr_right (hclaimed w))
  refine ⟨by simpa only [htaken] using h.unique,
    fun w ha hl => (htaken w).mpr (h.attached w ha hl), h.building, ?_, h.unattached, h.published,
    h.unclaimed, ?_, h.cleaned, fun k' w hw => h.holder k' w ((hheld k' w).mp hw),
    by simpa only [hheld] using h.oneHolder, ?_⟩
  · intro w hw
    rw [hclaimed] at hw
    exact h.present w hw
  · intro k' w hw
    by_cases hk : k' = k
    · subst hk
      exact hfetched w (by simpa [stopTo] using hw)
    · exact h.fetched k' w (by simpa [stopTo, hk] using hw)
  · intro w hw
    simp only [hheld]
    exact h.live w hw

/-- A stop command claims the stream of the channel private. -/
theorem sole_claim {s : Streams} (h : s.Sole) {k w : Nat} {old pc : StopCommandPc}
    (hbug : s.bug = some w) (hpc : s.stops k = old) (hold : old.claimed = none)
    (hnew : pc.claimed = some w) (hholds : ∀ v, pc.holds v ↔ old.holds v ∨ v = w)
    (hfetched : pc.fetched = none) : ((s.claim w).stopTo k pc).Sole := by
  subst hpc
  have hpub := h.published w hbug
  have hnone : ∀ k', ¬(s.stops k').holds w := fun k' hk => by
    have hc := h.holder k' w hk
    rw [hpub.2] at hc
    cases hc
  have hbug' : ∀ v, s.bug = some v ↔ v = w := fun v => by simp [hbug, eq_comm]
  have hclaimed : ∀ v, (∃ k', (((s.claim w).stopTo k pc).stops k').claimed = some v) ↔
      v = w ∨ ∃ k', (s.stops k').claimed = some v := fun v => by
    refine (exists_update_iff (p := fun pc : StopCommandPc => pc.claimed = some v) ?_).trans ?_
    · simp [claim, hold]
    · simp [hnew, claim, eq_comm]
  have hheld : ∀ k' v, (((s.claim w).stopTo k pc).stops k').holds v ↔
      (s.stops k').holds v ∨ k' = k ∧ v = w := by
    intro k' v
    by_cases hk : k' = k
    · subst hk
      simpa [stopTo, claim] using hholds v
    · simp [stopTo, claim, hk]
  have htaken : ∀ v, ((s.claim w).stopTo k pc).Taken v ↔ s.Taken v := fun v => by
    refine or_congr_right ?_
    rw [hclaimed, hbug']
    simp [stopTo, claim]
  refine ⟨by simpa only [htaken] using h.unique,
    fun v ha hl => (htaken v).mpr (h.attached v ha hl), h.building, ?_, h.unattached, nofun,
    ?_, ?_, ?_, ?_, ?_, ?_⟩
  · intro v hv
    rw [hclaimed] at hv
    refine h.present v ?_
    rcases hv with hv | hv | rfl | hv
    · exact Or.inl hv
    · cases hv
    · exact Or.inr (Or.inl hbug)
    · exact Or.inr (Or.inr hv)
  · intro v hv hc
    have hvw : v ≠ w := by
      rintro rfl
      simp [stopTo, claim] at hc
    exact absurd ((hbug' v).mp (h.unclaimed v hv (by simpa [stopTo, claim, hvw] using hc))) hvw
  · intro k' v hv
    by_cases hk : k' = k
    · subst hk
      simp [stopTo, hfetched] at hv
    · exact h.fetched k' v (by simpa [stopTo, claim, hk] using hv)
  · intro v hv
    by_cases hvw : v = w
    · exact hvw ▸ hpub.1
    · exact h.cleaned v (by simpa [stopTo, claim, hvw] using hv)
  · intro k' v hv
    rcases (hheld k' v).mp hv with hv | ⟨-, rfl⟩
    · by_cases hvw : v = w
      · exact absurd (hvw ▸ hv) (hnone k')
      · simpa [stopTo, claim, hvw] using h.holder k' v hv
    · simp [stopTo, claim]
  · intro k₁ k₂ v h₁ h₂
    rw [hheld] at h₁ h₂
    by_cases hvw : v = w
    · subst hvw
      exact (h₁.resolve_left (hnone k₁)).1.trans (h₂.resolve_left (hnone k₂)).1.symm
    · exact h.oneHolder k₁ k₂ v (h₁.resolve_right fun h => hvw h.2)
        (h₂.resolve_right fun h => hvw h.2)
  · intro v hv
    simp only [hheld]
    rcases h.live v hv with hv | hv | ⟨k', hv⟩
    · exact Or.inr (Or.inr ⟨k, Or.inr ⟨rfl, (hbug' v).mp hv⟩⟩)
    · exact Or.inr (Or.inl hv)
    · exact Or.inr (Or.inr ⟨k', Or.inl hv⟩)

theorem sole_held {s : Streams} (h : s.Sole) {k w : Nat} (hk : (s.stops k).holds w) :
    s.starts w = .done ∧ s.bug ≠ some w := by
  have hc := h.holder k w hk
  refine ⟨h.cleaned w hc, fun hbug => ?_⟩
  rw [(h.published w hbug).2] at hc
  cases hc

section Drop

variable {s : Streams} {k w : Nat} {pc : StopCommandPc}

/-- A stop command that gives a claim up was the only one to have it. -/
theorem claimed_drop_iff (h : s.Sole) (hk : (s.stops k).holds w)
    (hclaimed : ∀ v, (s.stops k).claimed = some v → v = w) (hnew : pc.claimed = none) (v : Nat) :
    (∃ k', (Function.update s.stops k pc k').claimed = some v) ↔
      (∃ k', (s.stops k').claimed = some v) ∧ v ≠ w := by
  constructor
  · rintro ⟨k', hv⟩
    have hk' : k' ≠ k := by
      rintro rfl
      simp [hnew] at hv
    have hv' : (s.stops k').claimed = some v := by simpa [hk'] using hv
    refine ⟨⟨k', hv'⟩, ?_⟩
    rintro rfl
    exact hk' (h.oneHolder k' k v (StopCommandPc.holds_of_claimed hv') hk)
  · rintro ⟨⟨k', hv⟩, hvw⟩
    have hk' : k' ≠ k := by
      rintro rfl
      exact hvw (hclaimed v hv)
    exact ⟨k', by simpa [hk'] using hv⟩

theorem taken_drop_iff (h : s.Sole) (hk : (s.stops k).holds w)
    (hclaimed : ∀ v, (s.stops k).claimed = some v → v = w) (hnew : pc.claimed = none)
    {attached live : Nat → Bool} (v : Nat) :
    ({ s with attached := attached, live := live }.stopTo k pc).Taken v ↔ s.Taken v ∧ v ≠ w := by
  obtain ⟨hdone, hbug⟩ := sole_held h hk
  have hold := claimed_drop_iff h hk hclaimed hnew v
  constructor
  · rintro (hv | hv | hv)
    · refine ⟨Or.inl hv, ?_⟩
      rintro rfl
      have hv' : (s.starts v).past = true := hv
      rw [hdone] at hv'
      cases hv'
    · refine ⟨Or.inr (Or.inl hv), ?_⟩
      rintro rfl
      exact hbug hv
    · obtain ⟨hv, hvw⟩ := hold.mp hv
      exact ⟨Or.inr (Or.inr hv), hvw⟩
  · rintro ⟨hv | hv | hv, hvw⟩
    · exact Or.inl hv
    · exact Or.inr (Or.inl hv)
    · exact Or.inr (Or.inr (hold.mpr ⟨hv, hvw⟩))

/-- The bugs that the session has claimed otherwise stay as they are. -/
theorem present_drop (h : s.Sole) (hk : (s.stops k).holds w)
    (hclaimed : ∀ v, (s.stops k).claimed = some v → v = w) (hnew : pc.claimed = none) {v : Nat}
    (hv : s.starts v = .setPrivate ∨ s.bug = some v ∨
      ∃ k', (Function.update s.stops k pc k').claimed = some v) :
    v ≠ w ∧ s.attached v = true ∧ s.live v = true := by
  obtain ⟨hdone, hbug⟩ := sole_held h hk
  rcases hv with hv | hv | hv
  · refine ⟨?_, h.present v (Or.inl hv)⟩
    rintro rfl
    rw [hdone] at hv
    cases hv
  · refine ⟨?_, h.present v (Or.inr (Or.inl hv))⟩
    rintro rfl
    exact hbug hv
  · obtain ⟨hv, hvw⟩ := (claimed_drop_iff h hk hclaimed hnew v).mp hv
    exact ⟨hvw, h.present v (Or.inr (Or.inr hv))⟩

theorem fetched_drop (h : s.Sole) (hfetched : pc.fetched = none) {k' v : Nat}
    (hv : (Function.update s.stops k pc k').fetched = some v) : s.starts v = .done := by
  by_cases hk : k' = k
  · subst hk
    simp [hfetched] at hv
  · exact h.fetched k' v (by simpa [hk] using hv)

/-- A stop command removes the bug that it has claimed. -/
theorem sole_removeBug (h : s.Sole) (hpc : s.stops k = .removeBug w) :
    ({ s with attached := Function.update s.attached w false }.stopTo k (.close w)).Sole := by
  have hk : (s.stops k).holds w := by
    rw [hpc]
    rfl
  have hclaimed : ∀ v, (s.stops k).claimed = some v → v = w := by
    intro v hv
    rw [hpc] at hv
    exact (Option.some.inj hv).symm
  have hw : s.Taken w := Or.inr (Or.inr ⟨k, by rw [hpc]; rfl⟩)
  have hheld : ∀ k' v, (Function.update s.stops k (.close w) k').holds v ↔
      (s.stops k').holds v := by
    intro k' v
    by_cases hk' : k' = k
    · subst hk'
      simp [hpc, StopCommandPc.holds]
    · simp [hk']
  have htaken := @taken_drop_iff s k w (.close w) h hk hclaimed rfl
  refine ⟨?_, ?_, h.building, ?_, ?_, h.published, h.unclaimed, fun k' v => fetched_drop h rfl,
    h.cleaned, fun k' v hv => h.holder k' v ((hheld k' v).mp hv), ?_, ?_⟩
  · intro v v' hv hv'
    exact h.unique v v' ((htaken v).mp hv).1 ((htaken v').mp hv').1
  · intro v ha hl
    have hvw : v ≠ w := by
      rintro rfl
      simp [stopTo] at ha
    have hv := h.attached v (by simpa [stopTo, hvw] using ha) hl
    exact (htaken v).mpr ⟨hv, hvw⟩
  · intro v hv
    obtain ⟨hvw, hv⟩ := @present_drop s k w (.close w) h hk hclaimed rfl v hv
    simpa [stopTo, hvw] using hv
  · intro v ha
    have hvw : v ≠ w := by
      rintro rfl
      simp [stopTo] at ha
    exact h.unattached v (by simpa [stopTo, hvw] using ha)
  · intro k₁ k₂ v h₁ h₂
    exact h.oneHolder k₁ k₂ v ((hheld k₁ v).mp h₁) ((hheld k₂ v).mp h₂)
  · intro v hv
    refine (h.live v hv).imp_right (Or.imp_right ?_)
    rintro ⟨k', hk'⟩
    exact ⟨k', (hheld k' v).mpr hk'⟩

/-- A stop command releases a streamer that it has claimed. -/
theorem sole_release (h : s.Sole) {old : StopCommandPc} (hpc : s.stops k = old)
    (hholds : ∀ v, old.holds v ↔ pc.holds v ∨ v = w)
    (hclaimed : ∀ v, old.claimed = some v → v = w) (hnew : pc.claimed = none)
    (hfetched : pc.fetched = none) : ((s.free w).stopTo k pc).Sole := by
  subst hpc
  have hk := (hholds w).mpr (Or.inr rfl)
  have hdone := (sole_held h hk).1
  have hheld : ∀ k' v, (Function.update s.stops k pc k').holds v → (s.stops k').holds v := by
    intro k' v hv
    by_cases hk' : k' = k
    · subst hk'
      exact (hholds v).mpr (Or.inl (by simpa using hv))
    · simpa [hk'] using hv
  have htaken := @taken_drop_iff s k w pc h hk hclaimed hnew
  have hlive : ∀ v, ((s.free w).stopTo k pc).live v = true ↔ s.live v = true ∧ v ≠ w := by
    intro v
    by_cases hvw : v = w
    · simp [stopTo, free, hvw]
    · simp [stopTo, free, hvw]
  refine ⟨?_, ?_, ?_, ?_, h.unattached, h.published, h.unclaimed,
    fun k' v => fetched_drop h hfetched, h.cleaned,
    fun k' v hv => h.holder k' v (hheld k' v hv), ?_, ?_⟩
  · intro v v' hv hv'
    exact h.unique v v' ((htaken v).mp hv).1 ((htaken v').mp hv').1
  · intro v ha hl
    obtain ⟨hl, hvw⟩ := (hlive v).mp hl
    exact (htaken v).mpr ⟨h.attached v ha hl, hvw⟩
  · intro v hv
    refine (hlive v).mpr ⟨h.building v hv, ?_⟩
    rintro rfl
    have hv' : (s.starts v).holds = true := hv
    rw [hdone] at hv'
    cases hv'
  · intro v hv
    obtain ⟨hvw, ha, hl⟩ := present_drop h hk hclaimed hnew hv
    exact ⟨ha, (hlive v).mpr ⟨hl, hvw⟩⟩
  · intro k₁ k₂ v h₁ h₂
    exact h.oneHolder k₁ k₂ v (hheld k₁ v h₁) (hheld k₂ v h₂)
  · intro v hv
    obtain ⟨hl, hvw⟩ := (hlive v).mp hv
    refine (h.live v hl).imp_right (Or.imp_right ?_)
    rintro ⟨k', hk'⟩
    refine ⟨k', ?_⟩
    by_cases hkk : k' = k
    · subst hkk
      simpa [stopTo] using ((hholds v).mp hk').resolve_right hvw
    · simpa [stopTo, free, hkk] using hk'

end Drop

theorem sole_stopStep {s : Streams} (h : s.Sole) (k : Nat) : (s.stopStep k).Sole := by
  unfold stopStep
  split
  case h_1 hpc =>
    split
    case h_1 i hbug =>
      refine sole_stopTo h hpc rfl rfl (fun _ => Iff.rfl) fun w hw => ?_
      obtain rfl : i = w := Option.some.inj hw
      exact (h.published i hbug).1
    case h_2 =>
      refine sole_stopTo h hpc rfl rfl (fun _ => Iff.rfl) fun _ hw => ?_
      cases hw
  case h_2 i hpc =>
    split
    case isTrue =>
      refine sole_stopTo h hpc rfl rfl (fun _ => Iff.rfl) fun _ hw => ?_
      cases hw
    case isFalse hc =>
      have hdone := h.fetched k i (by rw [hpc]; rfl)
      have hbug := h.unclaimed i hdone (by simpa using hc)
      refine sole_claim h hbug hpc rfl rfl (fun v => ?_) rfl
      simp [StopCommandPc.holds]
  case h_3 i hpc => exact sole_removeBug h hpc
  case h_4 i hpc =>
    split
    case h_1 j hbug =>
      refine sole_stopTo h hpc rfl rfl (fun _ => Iff.rfl) fun w hw => ?_
      obtain rfl : j = w := Option.some.inj hw
      exact (h.published j hbug).1
    case h_2 =>
      refine sole_stopTo h hpc rfl rfl (fun _ => Iff.rfl) fun _ hw => ?_
      cases hw
  case h_5 i j hpc =>
    split
    case isTrue =>
      refine sole_stopTo h hpc rfl rfl (fun _ => Iff.rfl) fun _ hw => ?_
      cases hw
    case isFalse hc =>
      have hdone := h.fetched k j (by rw [hpc]; rfl)
      have hbug := h.unclaimed j hdone (by simpa using hc)
      refine sole_claim h hbug hpc rfl rfl (fun v => ?_) rfl
      simp [StopCommandPc.holds]
  case h_6 i j hpc =>
    refine sole_release h hpc (fun v => Iff.rfl) (fun v hv => ?_) rfl rfl
    exact (Option.some.inj hv).symm
  case h_7 i hpc =>
    refine sole_release h hpc (fun v => ?_) (fun v hv => ?_) rfl rfl
    · simp [StopCommandPc.holds]
    · cases hv
  case h_8 => exact h

theorem sole_step {s : Streams} (h : s.Sole) {a : StreamsAct} (ha : ¬s.Crosses a) :
    (s.step a).Sole := by
  cases a with
  | start i ok => exact sole_startStep h ha
  | stop k => exact sole_stopStep h k

theorem always_sole {acts : List StreamsAct} (h : Never StreamsStep Crosses fresh acts) :
    Always StreamsStep Sole fresh acts := by
  refine always_of_kept ?_ sole_fresh h
  rintro s a t hs ha rfl
  exact sole_step hs ha

/-- The start command `i` is past its check, and its stream is as far as that. -/
def Underway (s : Streams) (i : Nat) : Prop :=
  match s.starts i with
  | .preAnswer => True
  | .create => True
  | .init => s.live i = true
  | .addBug => s.live i = true
  | .setPrivate => s.attached i = true ∧ s.live i = true
  | .done => s.attached i = true ∧ s.live i = true
  | _ => False

theorem underway_of_taken {s : Streams} (h : s.Sole) {i : Nat} (hi : s.Taken i) :
    s.Underway i := by
  have hdone : s.bug = some i ∨ (∃ k, (s.stops k).claimed = some i) → s.starts i = .done ∧
      s.attached i = true ∧ s.live i = true := by
    intro hi
    refine ⟨?_, h.present i (Or.inr hi)⟩
    rcases hi with hi | ⟨k, hi⟩
    · exact (h.published i hi).1
    · exact (sole_held h (StopCommandPc.holds_of_claimed hi)).1
  unfold Underway
  rcases hi with hi | hi
  · split
    case h_1 | h_2 => trivial
    case h_3 hpc | h_4 hpc => exact h.building i (by rw [hpc]; rfl)
    case h_5 hpc => exact h.present i (Or.inl hpc)
    case h_6 hpc => simp [hpc, StartCommandPc.past] at hi
    case h_7 h1 h2 h3 h4 h5 h6 =>
      cases hpc : s.starts i <;> simp_all [StartCommandPc.past]
  · obtain ⟨hpc, hi⟩ := hdone hi
    simpa only [hpc] using hi

/-- The start command `i` goes on to its end. -/
def startOn (i : Nat) : List StreamsAct := List.replicate 5 (.start i true)

theorem startOn_attaches {s : Streams} {i : Nat} (h : s.Underway i) :
    ((startOn i).foldl step s).attached i = true ∧ ((startOn i).foldl step s).live i = true := by
  unfold Underway at h
  cases hpc : s.starts i <;>
    simp_all [startOn, List.replicate, step, startStep, startTo]

theorem startStep_beside (s : Streams) (i : Nat) (ok : Bool) {v : Nat} (hv : v ≠ i) :
    (s.startStep i ok).starts v = s.starts v ∧ (s.startStep i ok).attached v = s.attached v ∧
      (s.startStep i ok).live v = s.live v := by
  unfold startStep
  split <;> (try split) <;> simp [startTo, free, hv]

theorem startOn_beside (s : Streams) {i v : Nat} (hv : v ≠ i) :
    ((startOn i).foldl step s).starts v = s.starts v ∧
      ((startOn i).foldl step s).attached v = s.attached v ∧
      ((startOn i).foldl step s).live v = s.live v := by
  have hrun := (run_foldl step s (startOn i)).and_labels (Q := fun a => a = .start i true)
    fun a (ha : a ∈ List.replicate 5 _) => List.eq_of_mem_replicate ha
  refine hrun.invariant (P := fun t => t.starts v = s.starts v ∧ t.attached v = s.attached v ∧
    t.live v = s.live v) ?_ ⟨rfl, rfl, rfl⟩
  rintro t a u ⟨h1, h2, h3⟩ ⟨rfl, rfl⟩
  obtain ⟨h1', h2', h3'⟩ := startStep_beside t i true hv
  exact ⟨h1'.trans h1, h2'.trans h2, h3'.trans h3⟩

theorem Underway.beside {s t : Streams} {i : Nat} (h : s.Underway i)
    (ht : t.starts i = s.starts i ∧ t.attached i = s.attached i ∧ t.live i = s.live i) :
    t.Underway i := by
  unfold Underway
  rw [ht.1, ht.2.1, ht.2.2]
  exact h

/-- After a start command has crossed another command, a run can go on to a second stream;
after a failed one its streamer stays. -/
theorem crossed_breaks {s : Streams} (h : s.Sole) {a : StreamsAct} (ha : s.Crosses a) :
    ∃ more, ¬Always StreamsStep Single s (a :: more) := by
  cases a with
  | start i ok =>
    rcases ha with ⟨hpc, hbug, w, hw⟩ | ⟨hpc, rfl⟩
    · have hwi : w ≠ i := by
        rintro rfl
        have hu := underway_of_taken h hw
        simp [Underway, hpc] at hu
      have hw' := (underway_of_taken h hw).beside (startStep_beside s i ok hwi)
      have hfirst := startOn_attaches hw'
      have hi : (s.startStep i ok).Underway i := by
        simp [Underway, startStep, hpc, hbug, startTo]
      have hi' := hi.beside (startOn_beside (s.startStep i ok) hwi.symm)
      have hsecond := startOn_attaches hi'
      obtain ⟨-, hatw, hlivew⟩ := startOn_beside ((startOn w).foldl step (s.startStep i ok)) hwi
      refine ⟨startOn w ++ startOn i, fun hall => hwi ?_⟩
      have hrun := run_foldl step s (.start i ok :: (startOn w ++ startOn i))
      have hend := hall _ _ (List.prefix_refl _) hrun
      rw [List.foldl_cons, List.foldl_append] at hend
      exact hend.1 w i (hatw.trans hfirst.1) (hlivew.trans hfirst.2) hsecond.1 hsecond.2
    · refine ⟨[], fun hall => ?_⟩
      have hrun := run_foldl step s [.start i false]
      have hend := (hall _ _ (List.prefix_refl _) hrun).2 i
      have hlive := h.building i (by rw [hpc]; rfl)
      have hleft : ([StreamsAct.start i false].foldl step s) = s.startTo i .failed := by
        simp [step, startStep, hpc]
      rw [hleft] at hend
      have hnot : ∀ {P : Prop}, s.starts i = .done → P := fun hd => by simp [hpc] at hd
      rcases hend hlive with hi | hi | ⟨k, hi⟩
      · exact hnot (h.published i hi).1
      · simp [startTo, StartCommandPc.holds] at hi
      · exact hnot (sole_held h hi).1
  | stop k => exact ha.elim

end Streams

/-- In every run in which no start command passes its check while the session is taken, or
fails after it has created its streamer, the session has one stream at most and loses none;
after such a step a run can go on to a second or a lost stream. -/
theorem session_has_single_stream (acts : List StreamsAct) :
    (Never StreamsStep Streams.Crosses .fresh acts →
      Always StreamsStep Streams.Single .fresh acts) ∧
    (Never StreamsStep Streams.Crosses .fresh acts →
      ∀ s a, Run StreamsStep .fresh acts s → s.Crosses a →
        ∃ more, ¬Always StreamsStep Streams.Single s (a :: more)) := by
  constructor
  · intro hnever
    exact (Streams.always_sole hnever).imp fun s => Streams.single_of_sole
  · intro hnever s a hrun ha
    have hs := Streams.always_sole hnever acts s (List.prefix_refl _) hrun
    exact Streams.crossed_breaks hs ha

/-- Two start commands pass the check before either of them sets the channel private. -/
def doubleStart : List StreamsAct :=
  [.start 0 true, .start 1 true] ++ List.replicate 5 (.start 0 true) ++
    List.replicate 5 (.start 1 true)

theorem double_start_attaches_two : ¬Always StreamsStep Streams.Single .fresh doubleStart := by
  intro h
  have hend := h _ _ (List.prefix_refl _) (run_foldl Streams.step _ doubleStart)
  exact absurd (hend.1 0 1 rfl rfl rfl rfl) (by decide)

end ModAudioStream
