import Mathlib.Data.List.Infix

namespace ModAudioStream

section Runs

variable {σ α : Type*}

/-- `Run Step s as t`: the labels `as`, taken in order, lead from `s` to `t`. -/
inductive Run (Step : σ → α → σ → Prop) : σ → List α → σ → Prop
  | nil (s : σ) : Run Step s [] s
  | cons {s t u : σ} {a : α} {as : List α} :
      Step s a t → Run Step t as u → Run Step s (a :: as) u

variable {Step : σ → α → σ → Prop}

theorem run_nil_iff {s t : σ} : Run Step s [] t ↔ t = s := by
  constructor
  · intro h
    cases h
    rfl
  · rintro rfl
    exact Run.nil _

theorem run_cons_iff {s u : σ} {a : α} {as : List α} :
    Run Step s (a :: as) u ↔ ∃ t, Step s a t ∧ Run Step t as u := by
  constructor
  · intro h
    cases h with
    | cons hs hr => exact ⟨_, hs, hr⟩
  · rintro ⟨t, hs, hr⟩
    exact Run.cons hs hr

theorem run_append_iff {s u : σ} {as bs : List α} :
    Run Step s (as ++ bs) u ↔ ∃ t, Run Step s as t ∧ Run Step t bs u := by
  induction as generalizing s with
  | nil => simp [run_nil_iff]
  | cons a as ih =>
    simp only [List.cons_append, run_cons_iff, ih]
    constructor
    · rintro ⟨t, hs, v, hv, hb⟩
      exact ⟨v, ⟨t, hs, hv⟩, hb⟩
    · rintro ⟨v, ⟨t, hs, hv⟩, hb⟩
      exact ⟨t, hs, v, hv, hb⟩

theorem run_foldl (step : σ → α → σ) (s : σ) (as : List α) :
    Run (fun s a t => step s a = t) s as (as.foldl step s) := by
  induction as generalizing s with
  | nil => exact Run.nil s
  | cons a as ih => exact Run.cons rfl (ih (step s a))

theorem Run.and_labels {Q : α → Prop} {s t : σ} {as : List α} (h : Run Step s as t)
    (hq : ∀ a ∈ as, Q a) : Run (fun s a t => Q a ∧ Step s a t) s as t := by
  induction h with
  | nil => exact Run.nil _
  | cons hs _ ih =>
    exact Run.cons ⟨hq _ List.mem_cons_self, hs⟩ (ih fun a ha => hq a (List.mem_cons_of_mem _ ha))

theorem Run.invariant {P : σ → Prop} (preserved : ∀ s a t, P s → Step s a t → P t)
    {s t : σ} {as : List α} (h : Run Step s as t) (hs : P s) : P t := by
  induction h with
  | nil => exact hs
  | cons step _ ih => exact ih (preserved _ _ _ hs step)

/-- A run that ends with a property it did not start with has a step that brings it about. -/
theorem Run.exists_crossing {P : σ → Prop} {s t : σ} {as : List α} (h : Run Step s as t)
    (hs : ¬P s) (ht : P t) :
    ∃ bs a u v, bs ++ [a] <+: as ∧ Run Step s bs u ∧ Step u a v ∧ ¬P u ∧ P v := by
  induction h with
  | nil => exact absurd ht hs
  | @cons s s' t a as hstep _ ih =>
    by_cases hs' : P s'
    · exact ⟨[], a, s, s', by simp, Run.nil s, hstep, hs, hs'⟩
    · obtain ⟨bs, b, u, v, hprefix, hrun, hcross⟩ := ih hs' ht
      exact ⟨a :: bs, b, u, v, by simpa using hprefix, Run.cons hstep hrun, hcross⟩

/-- A run whose steps another system can follow is followed by a run over the same labels. -/
theorem Run.simulate {τ : Type*} {Step' : τ → α → τ → Prop} {R : σ → τ → Prop}
    (follows : ∀ s a s' t, R s t → Step s a s' → ∃ t', Step' t a t' ∧ R s' t')
    {s s' : σ} {t : τ} {as : List α} (h : Run Step s as s') (hst : R s t) :
    ∃ t', Run Step' t as t' ∧ R s' t' := by
  induction h generalizing t with
  | nil s => exact ⟨t, Run.nil t, hst⟩
  | cons hstep _ ih =>
    obtain ⟨u, hu, hR⟩ := follows _ _ _ _ hst hstep
    obtain ⟨t', hrun, hR'⟩ := ih hR
    exact ⟨t', Run.cons hu hrun, hR'⟩

/-- `P` holds in every state that a run over `as` from `s` reaches, `s` included. -/
def Always (Step : σ → α → σ → Prop) (P : σ → Prop) (s : σ) (as : List α) : Prop :=
  ∀ bs t, bs <+: as → Run Step s bs t → P t

/-- No step of a run over `as` from `s` is taken from a state and label in `Bad`. -/
def Never (Step : σ → α → σ → Prop) (Bad : σ → α → Prop) (s : σ) (as : List α) : Prop :=
  ∀ bs a t, bs ++ [a] <+: as → Run Step s bs t → ¬Bad t a

theorem Always.head {P : σ → Prop} {s : σ} {as : List α} (h : Always Step P s as) : P s :=
  h [] s (List.nil_prefix) (Run.nil s)

theorem always_nil_iff {P : σ → Prop} {s : σ} : Always Step P s [] ↔ P s := by
  constructor
  · exact Always.head
  · intro hs bs t hb hr
    rw [List.prefix_nil.mp hb, run_nil_iff] at hr
    exact hr ▸ hs

theorem always_cons_iff {P : σ → Prop} {s : σ} {a : α} {as : List α} :
    Always Step P s (a :: as) ↔ P s ∧ ∀ t, Step s a t → Always Step P t as := by
  constructor
  · intro h
    refine ⟨h.head, fun t hs bs u hb hr => ?_⟩
    exact h (a :: bs) u ((List.cons_prefix_cons).mpr ⟨rfl, hb⟩) (Run.cons hs hr)
  · rintro ⟨hp, h⟩ bs u hb hr
    cases hr with
    | nil => exact hp
    | cons hs hr =>
      obtain ⟨rfl, htail⟩ := List.cons_prefix_cons.mp hb
      exact h _ hs _ u htail hr

/-- Every step of a run over `as` from `s` is taken from a state and label in `Good`. -/
def Each (Step : σ → α → σ → Prop) (Good : σ → α → Prop) (s : σ) (as : List α) : Prop :=
  ∀ bs a t, bs ++ [a] <+: as → Run Step s bs t → Good t a

theorem each_nil {Good : σ → α → Prop} {s : σ} : Each Step Good s [] := by
  intro bs a t hb
  exact absurd (List.prefix_nil.mp hb) (by simp)

theorem each_cons_iff {Good : σ → α → Prop} {s : σ} {a : α} {as : List α} :
    Each Step Good s (a :: as) ↔ Good s a ∧ ∀ t, Step s a t → Each Step Good t as := by
  constructor
  · intro h
    refine ⟨h [] a s (by simp) (Run.nil s), fun t hs bs b u hb hr => ?_⟩
    exact h (a :: bs) b u (by simpa using hb) (Run.cons hs hr)
  · rintro ⟨hp, h⟩ bs b u hb hr
    cases hr with
    | nil =>
      have hba : b = a := by simpa using hb
      exact hba ▸ hp
    | cons hs hr =>
      obtain ⟨rfl, htail⟩ := List.cons_prefix_cons.mp hb
      exact h _ hs _ b u htail hr

theorem never_nil {Bad : σ → α → Prop} {s : σ} : Never Step Bad s [] := each_nil

theorem never_cons_iff {Bad : σ → α → Prop} {s : σ} {a : α} {as : List α} :
    Never Step Bad s (a :: as) ↔ ¬Bad s a ∧ ∀ t, Step s a t → Never Step Bad t as :=
  @each_cons_iff σ α Step (fun s a => ¬Bad s a) s a as

theorem Always.imp {P Q : σ → Prop} (hpq : ∀ s, P s → Q s) {s : σ} {as : List α}
    (h : Always Step P s as) : Always Step Q s as :=
  fun bs t hb hr => hpq t (h bs t hb hr)

theorem always_of_invariant {I : σ → Prop} (keep : ∀ s a t, I s → Step s a t → I t)
    {s : σ} (hs : I s) (as : List α) : Always Step I s as :=
  fun _ _ _ hr => hr.invariant keep hs

theorem never_of_always {P : σ → Prop} {Bad : σ → α → Prop} (hp : ∀ s a, P s → ¬Bad s a)
    {s : σ} {as : List α} (h : Always Step P s as) : Never Step Bad s as :=
  fun bs a t hb hr => hp t a (h bs t ((List.prefix_append bs [a]).trans hb) hr)

/-- Beside an invariant `I`, a property that every step outside `Bad` preserves
holds along every run that takes no step in `Bad`. -/
theorem always_of_never {I P : σ → Prop} {Bad : σ → α → Prop}
    (keep : ∀ s a t, I s → Step s a t → I t)
    (good : ∀ s a t, I s → P s → ¬Bad s a → Step s a t → P t)
    {s : σ} {as : List α} (hi : I s) (hs : P s) (h : Never Step Bad s as) :
    Always Step P s as := by
  induction as generalizing s with
  | nil => exact always_nil_iff.mpr hs
  | cons a as ih =>
    obtain ⟨ha, h⟩ := never_cons_iff.mp h
    refine always_cons_iff.mpr ⟨hs, fun t ht => ?_⟩
    exact ih (keep s a t hi ht) (good s a t hi hs ha ht) (h t ht)

theorem always_of_kept {P : σ → Prop} {Bad : σ → α → Prop}
    (keep : ∀ s a t, P s → ¬Bad s a → Step s a t → P t)
    {s : σ} {as : List α} (hs : P s) (h : Never Step Bad s as) : Always Step P s as :=
  always_of_never (I := fun _ => True) (fun _ _ _ _ _ => trivial) (fun s a t _ => keep s a t)
    trivial hs h

/-- When moreover a step in `Bad` can be taken and breaks the property, the two
are the same along every run. -/
theorem always_iff_never {I P : σ → Prop} {Bad : σ → α → Prop}
    (keep : ∀ s a t, I s → Step s a t → I t)
    (good : ∀ s a t, I s → P s → ¬Bad s a → Step s a t → P t)
    (bad : ∀ s a, I s → P s → Bad s a → ∃ t, Step s a t ∧ ¬P t)
    {s : σ} {as : List α} (hi : I s) (hs : P s) :
    Always Step P s as ↔ Never Step Bad s as := by
  refine ⟨fun h => ?_, always_of_never keep good hi hs⟩
  induction as generalizing s with
  | nil => exact never_nil
  | cons a as ih =>
    obtain ⟨_, h⟩ := always_cons_iff.mp h
    refine never_cons_iff.mpr ⟨fun hb => ?_, fun t ht => ?_⟩
    · obtain ⟨t, ht, hn⟩ := bad s a hi hs hb
      exact hn (h t ht).head
    · exact ih (keep s a t hi ht) (h t ht).head (h t ht)

/-- Beside an invariant `I` of the steps outside `Bad`, a property of single steps holds
of every step of a run that takes no step in `Bad`. -/
theorem each_of_never {I : σ → Prop} {Good Bad : σ → α → Prop}
    (keep : ∀ s a t, I s → ¬Bad s a → Step s a t → I t)
    (good : ∀ s a, I s → ¬Bad s a → Good s a)
    {s : σ} {as : List α} (hi : I s) (h : Never Step Bad s as) : Each Step Good s as := by
  induction as generalizing s with
  | nil => exact each_nil
  | cons a as ih =>
    obtain ⟨ha, h⟩ := never_cons_iff.mp h
    exact each_cons_iff.mpr ⟨good s a hi ha, fun t ht => ih (keep s a t hi ha ht) (h t ht)⟩

theorem each_iff_never {I : σ → Prop} {Good Bad : σ → α → Prop}
    (keep : ∀ s a t, I s → ¬Bad s a → Step s a t → I t)
    (good : ∀ s a, I s → (Good s a ↔ ¬Bad s a))
    {s : σ} {as : List α} (hi : I s) : Each Step Good s as ↔ Never Step Bad s as := by
  refine ⟨fun h => ?_, each_of_never keep (fun s a hs => (good s a hs).mpr) hi⟩
  induction as generalizing s with
  | nil => exact never_nil
  | cons a as ih =>
    obtain ⟨ha, h⟩ := each_cons_iff.mp h
    have hb := (good s a hi).mp ha
    exact never_cons_iff.mpr ⟨hb, fun t ht => ih (keep s a t hi hb ht) (h t ht)⟩

/-- A property of states holds along every run exactly when it holds at the start and behind
every step. -/
theorem always_iff_each {P : σ → Prop} {s : σ} {as : List α} :
    Always Step P s as ↔ P s ∧ Each Step (fun u a => ∀ t, Step u a t → P t) s as := by
  induction as generalizing s with
  | nil =>
    rw [always_nil_iff]
    exact (and_iff_left each_nil).symm
  | cons a as ih =>
    rw [always_cons_iff, each_cons_iff]
    constructor
    · rintro ⟨hs, h⟩
      exact ⟨hs, fun t ht => (h t ht).head, fun t ht => (ih.mp (h t ht)).2⟩
    · rintro ⟨hs, hnext, h⟩
      exact ⟨hs, fun t ht => ih.mpr ⟨hnext t ht, h t ht⟩⟩

theorem each_and_iff {Good Good' : σ → α → Prop} {s : σ} {as : List α} :
    Each Step Good s as ∧ Each Step Good' s as ↔ Each Step (fun u a => Good u a ∧ Good' u a) s as :=
  ⟨fun h bs a t hb hr => ⟨h.1 bs a t hb hr, h.2 bs a t hb hr⟩,
    fun h => ⟨fun bs a t hb hr => (h bs a t hb hr).1, fun bs a t hb hr => (h bs a t hb hr).2⟩⟩

/-- No step of a run over `as` from `s` in `First` is followed by one in `Second`. -/
def NeverThen (Step : σ → α → σ → Prop) (First Second : σ → α → Prop) (s : σ) (as : List α) :
    Prop :=
  ∀ bs a b t u, bs ++ [a, b] <+: as → Run Step s bs t → First t a → Step t a u → ¬Second u b

theorem NeverThen.tail {First Second : σ → α → Prop} {s t : σ} {a : α} {as : List α}
    (h : NeverThen Step First Second s (a :: as)) (hstep : Step s a t) :
    NeverThen Step First Second t as := by
  intro bs b c u v hprefix hrun
  exact h (a :: bs) b c u v (List.cons_prefix_cons.mpr ⟨rfl, hprefix⟩) (Run.cons hstep hrun)

theorem NeverThen.head {First Second : σ → α → Prop} {s t : σ} {a b : α} {as : List α}
    (h : NeverThen Step First Second s (a :: b :: as)) (hfirst : First s a) (hstep : Step s a t) :
    ¬Second t b :=
  h [] a b s t (by simp) (Run.nil s) hfirst hstep

/-- A property that only a step in `First` puts at risk and only a step in `Second` straight
after it breaks holds along every run in which the two never follow each other. -/
theorem always_iff_neverThen {I D P : σ → Prop} {First Second : σ → α → Prop}
    (safe : ∀ s, I s ∨ D s → P s)
    (keep : ∀ s a t, I s → Step s a t → I t ∨ (First s a ∧ D t))
    (back : ∀ s a t, D s → ¬Second s a → Step s a t → I t)
    (risk : ∀ s a t b, First s a → Step s a t → Second t b → D t)
    (bad : ∀ s a, D s → Second s a → ∃ t, Step s a t ∧ ¬P t)
    {s : σ} {as : List α} (hs : I s) :
    Always Step P s as ↔ NeverThen Step First Second s as := by
  constructor
  · intro h bs a b t u hprefix hrun hfirst hstep hsecond
    obtain ⟨v, hv, hnot⟩ := bad u b (risk t a u b hfirst hstep hsecond) hsecond
    have hall : Run Step s (bs ++ [a, b]) v :=
      run_append_iff.mpr ⟨t, hrun, Run.cons hstep (Run.cons hv (Run.nil v))⟩
    exact hnot (h _ v hprefix hall)
  · -- with what the next label must not be, where the property is at risk
    have hboth : (I s ∨ D s ∧ ∀ b bs, as = b :: bs → ¬Second s b) →
        NeverThen Step First Second s as → Always Step P s as := by
      clear hs
      induction as generalizing s with
      | nil =>
        intro hs _
        exact always_nil_iff.mpr (safe s (hs.imp_right And.left))
      | cons a as ih =>
        intro hs h
        refine always_cons_iff.mpr ⟨safe s (hs.imp_right And.left), fun t hstep => ?_⟩
        refine ih ?_ (h.tail hstep)
        rcases hs with hs | ⟨hs, hnext⟩
        · rcases keep s a t hs hstep with ht | ⟨hfirst, ht⟩
          · exact Or.inl ht
          · refine Or.inr ⟨ht, ?_⟩
            rintro b bs rfl
            exact h.head hfirst hstep
        · exact Or.inl (back s a t hs (hnext a as rfl) hstep)
    exact hboth (Or.inl hs)

/-- For steps that have one outcome and a property that, once lost, stays lost: it holds at
the end of a run exactly when no step of the run is in `Bad`. -/
theorem final_iff_never {I P : σ → Prop} {Bad : σ → α → Prop}
    (det : ∀ s a t t', Step s a t → Step s a t' → t = t')
    (keep : ∀ s a t, I s → Step s a t → I t)
    (step : ∀ s a t, I s → Step s a t → (P t ↔ P s ∧ ¬Bad s a))
    {s t : σ} {as : List α} (hi : I s) (hs : P s) (h : Run Step s as t) :
    P t ↔ Never Step Bad s as := by
  have lost : ∀ {as s t}, I s → ¬P s → Run Step s as t → ¬P t := by
    intro as s t hi hs h
    induction h with
    | nil => exact hs
    | cons hstep _ ih => exact ih (keep _ _ _ hi hstep) fun hp => hs ((step _ _ _ hi hstep).mp hp).1
  induction h with
  | nil => exact iff_of_true hs never_nil
  | @cons s u t a as hstep hrun ih =>
    have hiu := keep s a u hi hstep
    have hu := step s a u hi hstep
    rw [never_cons_iff]
    by_cases hb : Bad s a
    · exact iff_of_false (lost hiu (fun hp => (hu.mp hp).2 hb) hrun) fun hn => hn.1 hb
    · refine (ih hiu (hu.mpr ⟨hs, hb⟩)).trans ?_
      exact ⟨fun hn => ⟨hb, fun t' ht' => det s a u t' hstep ht' ▸ hn⟩, fun hn => hn.2 u hstep⟩

end Runs

section Sequences

variable {σ α : Type*}

/-- The states of the run over an infinite sequence of labels. -/
def statesFrom (step : σ → α → σ) (s : σ) (as : Nat → α) : Nat → σ
  | 0 => s
  | k + 1 => step (statesFrom step s as k) (as k)

theorem run_statesFrom (step : σ → α → σ) (s : σ) (as : Nat → α) (k : Nat) :
    Run (fun s a t => step s a = t) s ((List.range k).map as) (statesFrom step s as k) := by
  induction k with
  | zero => exact Run.nil s
  | succ k ih =>
    rw [List.range_succ, List.map_append, run_append_iff]
    exact ⟨_, ih, Run.cons rfl (Run.nil _)⟩

/-- There is a sequence of labels in which each one is the reply to the state before it. -/
theorem exists_replies (step : σ → α → σ) (s : σ) (reply : σ → α) :
    ∃ as : Nat → α, ∀ k, as k = reply (statesFrom step s as k) := by
  let next := fun x => step x (reply x)
  refine ⟨fun k => reply (next^[k] s), fun k => ?_⟩
  have hstates : statesFrom step s (fun k => reply (next^[k] s)) k = next^[k] s := by
    induction k with
    | zero => rfl
    | succ k ih =>
      rw [statesFrom, ih, Function.iterate_succ_apply']
  rw [hstates]

/-- What every step keeps holds from some state of a sequence on. -/
theorem kept_from {P : σ → Prop} {x : Nat → σ} (keep : ∀ k, P (x k) → P (x (k + 1)))
    {j k : Nat} (hjk : j ≤ k) (h : P (x j)) : P (x k) := by
  induction hjk with
  | refl => exact h
  | step _ ih => exact keep _ ih

/-- A sequence that reaches its goal from a pending state, or else a pending state of smaller
rank, reaches its goal. -/
theorem reaches_of_rank {Pending Goal : σ → Prop} {rank : σ → Nat} {x : Nat → σ}
    (next : ∀ k, Pending (x k) →
      Goal (x (k + 1)) ∨ (Pending (x (k + 1)) ∧ rank (x (k + 1)) < rank (x k)))
    {k : Nat} (h : Pending (x k)) : ∃ j, Goal (x j) := by
  generalize hn : rank (x k) = n
  induction n using Nat.strong_induction_on generalizing k with
  | _ n ih =>
    rcases next k h with hgoal | ⟨hpending, hlt⟩
    · exact ⟨k + 1, hgoal⟩
    · exact ih _ (hn ▸ hlt) hpending rfl

/-- What only a step at certain indices may end lasts until such an index, when they come again
and again. -/
theorem lasts_until {P : σ → Prop} {x : Nat → σ} {At : Nat → Prop}
    (again : ∀ k, ∃ j, k ≤ j ∧ At j) (stays : ∀ k, ¬At k → P (x k) → P (x (k + 1)))
    {k : Nat} (h : P (x k)) : ∃ j, k ≤ j ∧ At j ∧ P (x j) := by
  by_contra hnone
  have hall : ∀ j, k ≤ j → P (x j) := by
    refine Nat.le_induction h fun m hm ih => stays m (fun hat => ?_) ih
    exact hnone ⟨m, hm, hat, ih⟩
  obtain ⟨j, hkj, hat⟩ := again k
  exact hnone ⟨j, hkj, hat, hall j hkj⟩

end Sequences

end ModAudioStream
