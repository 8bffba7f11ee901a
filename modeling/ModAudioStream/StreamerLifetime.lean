import ModAudioStream.StreamerThreads

namespace ModAudioStream

def StartPc.rank : StartPc → Nat
  | .create => 0
  | .connect => 1
  | .threadStarted => 2
  | .wrap => 3
  | .init => 4
  | _ => 5

namespace Lifetime

def Safe (s : Lifetime) : Prop := s.destroyed = true → s.worker.usesMembers = false

/-- The worker, in its error callback, starts the cleanup itself. -/
def CleansUpOnWorker (s : Lifetime) (a : LifetimeAct) : Prop :=
  (∃ p, s.worker = .errorClaim p) ∧ s.claimable = true ∧ ∃ env, a = .worker env

/-- While no cleanup has run on the worker: somebody beside the worker owns the streamer
until the worker has been joined. -/
structure Inv (s : Lifetime) : Prop where
  absent : s.worker = .absent ↔ s.start.rank ≤ 1
  others : ∀ p pc, s.worker ≠ .errorCleanup p pc
  created : 1 ≤ s.start.rank → s.created = true
  sp : 1 ≤ s.start.rank → s.start.rank ≤ 4 → s.sp = true
  released : 5 ≤ s.start.rank → s.sp = false
  kept : 4 ≤ s.start.rank → s.wrapper = true ∨ s.streamer = true ∨ s.worker.usesMembers = false
  streamer : s.cleanup.isSome → s.streamer = true ∨ s.worker.usesMembers = false
  joined : s.cleanup = some .ret ∨ s.start = .destroyDelete → s.worker.usesMembers = false
  joinable : 2 ≤ s.start.rank → s.joinable = true ∨ s.worker.usesMembers = false
  threadStarted : 3 ≤ s.start.rank → s.threadStarted = true ∨ s.worker.usesMembers = false
  bug : s.bug = true ∨ s.cleanup.isSome → s.start = .done
  unclaimed : s.cleanupStarted = false → s.streamer = false

theorem inv_fresh : fresh.Inv := by
  constructor <;> simp [fresh, StartPc.rank]

theorem safe_of_inv {s : Lifetime} (h : s.Inv) : s.Safe := by
  intro hd
  by_contra hu
  have hrank : ¬s.start.rank ≤ 1 := fun hr => hu (by rw [h.absent.mpr hr]; rfl)
  have hown : s.sp = true ∨ s.wrapper = true ∨ s.streamer = true := by
    by_cases hr : s.start.rank ≤ 4
    · exact Or.inl (h.sp (by omega) hr)
    · rcases h.kept (by omega) with hw | hs | hf
      · exact Or.inr (Or.inl hw)
      · exact Or.inr (Or.inr hs)
      · exact absurd hf hu
  rcases hown with ho | ho | ho <;> simp [destroyed, owned, ho] at hd

/-- A worker step outside the cleanup moves the worker and its own lock only, and once
the worker uses no member it never does again. -/
structure WorkerMoves (s t : Lifetime) : Prop where
  frame : t = { s with self := t.self, worker := t.worker }
  absent : t.worker = .absent ↔ s.worker = .absent
  others : ∀ p pc, t.worker ≠ .errorCleanup p pc
  stays : s.worker.usesMembers = false → t.worker.usesMembers = false

theorem moves_of_uses {s : Lifetime} (hu : s.worker.usesMembers = true) (self : Bool)
    {w : ThreadPc} (hw : w ≠ .absent) (ho : ∀ p pc, w ≠ .errorCleanup p pc) :
    s.WorkerMoves { s with self := self, worker := w } := by
  have hs : s.worker ≠ .absent := by
    intro he
    rw [he] at hu
    cases hu
  refine ⟨rfl, iff_of_false hw hs, ho, fun hf => ?_⟩
  rw [hu] at hf
  cases hf

theorem moves_of_quiet {s : Lifetime} (hs : s.worker ≠ .absent) (self : Bool) {w : ThreadPc}
    (hw : w ≠ .absent) (hq : w.usesMembers = false) :
    s.WorkerMoves { s with self := self, worker := w } := by
  refine ⟨rfl, iff_of_false hw hs, fun p pc he => ?_, fun _ => hq⟩
  change w = .errorCleanup p pc at he
  rw [he] at hq
  cases hq

theorem moves_refl {s : Lifetime} (h : s.Inv) : s.WorkerMoves s :=
  ⟨rfl, Iff.rfl, h.others, id⟩

theorem workerStep_moves {s : Lifetime} {env : ThreadEnv} (h : s.Inv)
    (hb : ¬s.CleansUpOnWorker (.worker env)) : s.WorkerMoves (s.workerStep env) := by
  unfold workerStep
  split
  case h_1 | h_22 => exact moves_refl h
  case h_2 hw =>
    have hu : s.worker.usesMembers = true := by rw [hw]; rfl
    split
    · exact moves_of_uses hu _ nofun nofun
    · split <;> exact moves_of_uses hu _ nofun nofun
  case h_3 hw | h_4 hw | h_5 hw | h_6 hw | h_7 hw | h_15 hw | h_16 hw =>
    have hu : s.worker.usesMembers = true := by rw [hw]; rfl
    split <;> exact moves_of_uses hu _ nofun nofun
  case h_8 p hw =>
    have hu : s.worker.usesMembers = true := by rw [hw]; rfl
    split
    next hc => exact absurd ⟨⟨p, hw⟩, hc, env, rfl⟩ hb
    · exact moves_of_uses hu _ nofun nofun
  case h_9 hw | h_10 hw | h_11 hw | h_12 hw | h_13 hw => exact absurd hw (h.others _ _)
  case h_14 hw | h_17 hw | h_18 hw =>
    have hu : s.worker.usesMembers = true := by rw [hw]; rfl
    exact moves_of_uses hu _ nofun nofun
  case h_19 hw | h_20 hw =>
    have hs : s.worker ≠ .absent := by simp [hw]
    split <;> exact moves_of_quiet hs _ nofun rfl
  case h_21 hw => exact moves_of_quiet (by simp [hw]) _ nofun rfl

theorem inv_moves {s t : Lifetime} (h : s.Inv) (hm : s.WorkerMoves t) : t.Inv := by
  obtain ⟨hframe, habsent, hothers, hstays⟩ := hm
  rw [hframe]
  exact ⟨habsent.trans h.absent, hothers, h.created, h.sp, h.released,
    fun hr => (h.kept hr).imp_right (.imp_right hstays),
    fun hc => (h.streamer hc).imp_right hstays, fun hj => hstays (h.joined hj),
    fun hr => (h.joinable hr).imp_right hstays, fun hr => (h.threadStarted hr).imp_right hstays,
    h.bug, h.unclaimed⟩

theorem quiet_of_disconnect {s t : Lifetime} (h : s.Inv) (hr : 3 ≤ s.start.rank)
    (hd : s.disconnect = some t) :
    s.worker.usesMembers = false ∧
      t = { s with threadStarted := t.threadStarted, joinable := t.joinable } := by
  unfold disconnect at hd
  split at hd
  next hj =>
    split at hd
    next hf =>
      obtain rfl := Option.some.inj hd
      exact ⟨by rw [hf]; rfl, rfl⟩
    · cases hd
  next hj =>
    obtain rfl := Option.some.inj hd
    refine ⟨?_, rfl⟩
    rcases h.threadStarted hr with ht | hq
    · rcases h.joinable (by omega) with hb | hq
      · exact absurd (show s.joinsWorker = true by simp [joinsWorker, ht, hb]) hj
      · exact hq
    · exact hq

theorem inv_of_quiet {s : Lifetime} (hq : s.worker.usesMembers = false)
    (absent : s.worker = .absent ↔ s.start.rank ≤ 1)
    (others : ∀ p pc, s.worker ≠ .errorCleanup p pc) (created : 1 ≤ s.start.rank → s.created = true)
    (sp : 1 ≤ s.start.rank → s.start.rank ≤ 4 → s.sp = true)
    (released : 5 ≤ s.start.rank → s.sp = false)
    (bug : s.bug = true ∨ s.cleanup.isSome → s.start = .done)
    (unclaimed : s.cleanupStarted = false → s.streamer = false) : s.Inv :=
  ⟨absent, others, created, sp, released, fun _ => Or.inr (Or.inr hq), fun _ => Or.inr hq,
    fun _ => hq, fun _ => Or.inr hq, fun _ => Or.inr hq, bug, unclaimed⟩

theorem inv_start_late {s : Lifetime} (h : s.Inv) (next : StartPc) (hs : s.start.rank = 5)
    (hn : next.rank = 5) (hd : next ≠ .destroyDelete)
    (bug published callbacks cleanedUp : Bool)
    (hb : bug = true ∨ s.cleanup.isSome → next = .done) :
    ({ s with bug := bug, published := published, callbacks := callbacks, cleanedUp := cleanedUp,
              start := next } : Lifetime).Inv := by
  have hrank : next.rank = s.start.rank := hn.trans hs.symm
  refine ⟨?_, h.others, fun _ => h.created (by omega), ?_, fun _ => h.released (by omega),
    fun _ => h.kept (by omega), h.streamer, ?_, fun _ => h.joinable (by omega),
    fun _ => h.threadStarted (by omega), hb, h.unclaimed⟩
  · rw [hrank]
    exact h.absent
  · intro _ (hr : next.rank ≤ 4)
    omega
  · rintro (hc | hc)
    · exact h.joined (Or.inl hc)
    · exact absurd hc hd

theorem not_started {s : Lifetime} (h : s.Inv) (hs : s.start ≠ .done) :
    ¬(s.bug = true ∨ s.cleanup.isSome) := fun hb => hs (h.bug hb)

theorem inv_startStep_early {s : Lifetime} (h : s.Inv) (ok : Bool) (hr : s.start.rank ≤ 4) :
    (s.startStep ok).Inv := by
  have hbug := not_started h fun hd => absurd hr (by simp [hd, StartPc.rank])
  have hcleanup : ¬s.cleanup.isSome := fun hc => hbug (Or.inr hc)
  have hret : s.cleanup ≠ some .ret := fun hc => hcleanup (by simp [hc])
  obtain ⟨habsent, hothers, hcreated, hsp, -, hkept, -, -, hjoinable, hthread, -, hunclaimed⟩ := h
  cases hs : s.start with
  | create =>
    simp only [startStep, hs]
    refine ⟨?_, hothers, fun _ => rfl, fun _ _ => rfl, ?_, ?_, ?_, ?_, ?_, ?_, ?_, hunclaimed⟩
    all_goals simp_all [StartPc.rank]
  | connect =>
    simp only [startStep, hs]
    refine ⟨?_, nofun, fun _ => hcreated ?_, fun _ _ => hsp ?_ ?_, ?_, ?_, ?_, ?_,
      fun _ => Or.inl rfl, ?_, ?_, hunclaimed⟩
    all_goals simp_all [StartPc.rank]
  | threadStarted =>
    simp only [startStep, hs]
    refine ⟨?_, hothers, fun _ => hcreated ?_, fun _ _ => hsp ?_ ?_, ?_, ?_, ?_, ?_,
      fun _ => hjoinable ?_, fun _ => Or.inl rfl, ?_, hunclaimed⟩
    all_goals simp_all [StartPc.rank]
  | wrap =>
    simp only [startStep, hs]
    refine ⟨?_, hothers, fun _ => hcreated ?_, fun _ _ => hsp ?_ ?_, ?_, fun _ => Or.inl rfl,
      ?_, ?_, fun _ => hjoinable ?_, fun _ => hthread ?_, ?_, hunclaimed⟩
    all_goals simp_all [StartPc.rank]
  | init =>
    simp only [startStep, hs]
    refine ⟨?_, hothers, fun _ => hcreated ?_, ?_, fun _ => rfl, fun _ => hkept ?_, ?_, ?_,
      fun _ => hjoinable ?_, fun _ => hthread ?_, ?_, hunclaimed⟩
    all_goals cases ok <;> simp_all [StartPc.rank]
  | _ =>
    rw [hs] at hr
    exact absurd hr (by decide)

theorem inv_startStep {s : Lifetime} (h : s.Inv) (ok : Bool) : (s.startStep ok).Inv := by
  by_cases hr : s.start.rank ≤ 4
  · exact inv_startStep_early h ok hr
  unfold startStep
  split
  case h_1 hs | h_2 hs | h_3 hs | h_4 hs | h_5 hs =>
    rw [hs] at hr
    exact absurd (by decide) hr
  case h_6 hs =>
    have hnew := not_started h (by simp [hs])
    have h5 : s.start.rank = 5 := by rw [hs]; rfl
    cases ok
    · exact inv_start_late h .destroyTake h5 rfl nofun _ _ _ _ fun hb => (hnew hb).elim
    · exact inv_start_late h .setPrivate h5 rfl nofun _ _ _ _ fun hb => (hnew hb).elim
  case h_7 hs =>
    exact inv_start_late h .done (by rw [hs]; rfl) rfl nofun _ _ _ _ fun _ => rfl
  case h_8 | h_12 => exact h
  case h_9 hs =>
    exact inv_start_late h .destroyDisconnect (by rw [hs]; rfl) rfl nofun _ _ _ _ fun hb =>
      (not_started h (by simp [hs]) hb).elim
  case h_10 hs =>
    split
    next t hd =>
      obtain ⟨hq, ht⟩ := quiet_of_disconnect h (by simp [hs, StartPc.rank]) hd
      have habsent := h.absent
      have hcreated := h.created
      have hreleased := h.released
      rw [hs] at habsent hcreated hreleased
      rw [ht]
      exact inv_of_quiet hq habsent h.others hcreated nofun hreleased
        (fun hb => (not_started h (by simp [hs]) hb).elim) h.unclaimed
    · exact h
  case h_11 hs =>
    have habsent := h.absent
    have hcreated := h.created
    have hreleased := h.released
    rw [hs] at habsent hcreated hreleased
    exact inv_of_quiet (h.joined (Or.inr hs)) habsent h.others hcreated nofun hreleased
      (fun hb => (not_started h (by simp [hs]) hb).elim) h.unclaimed

theorem inv_cleanup_next {s : Lifetime} (h : s.Inv) {pc : CleanupPc}
    (hc : s.cleanup = some pc) (next : CleanupPc) (hn : next ≠ .ret)
    (wrapper callbacks cleanedUp : Bool) :
    ({ s with wrapper := wrapper, callbacks := callbacks, cleanedUp := cleanedUp,
              cleanup := some next } : Lifetime).Inv := by
  have hsome : s.cleanup.isSome := by rw [hc]; rfl
  refine ⟨h.absent, h.others, h.created, h.sp, h.released, fun _ => Or.inr (h.streamer hsome),
    fun _ => h.streamer hsome, ?_, h.joinable, h.threadStarted, fun _ => h.bug (Or.inr hsome),
    h.unclaimed⟩
  rintro (hret | hd)
  · exact absurd (Option.some.inj hret) hn
  · exact h.joined (Or.inr hd)

theorem inv_cleanupStep {s : Lifetime} (h : s.Inv) : s.cleanupStep.Inv := by
  unfold cleanupStep
  split
  case h_1 => exact h
  case h_2 hc => exact inv_cleanup_next h hc .deleteWrapper nofun _ _ _
  case h_3 hc => exact inv_cleanup_next h hc .markCleanedUp nofun _ _ _
  case h_4 hc => exact inv_cleanup_next h hc .disconnect nofun _ _ _
  case h_5 hc =>
    have hdone := h.bug (Or.inr (by rw [hc]; rfl))
    split
    next t hd =>
      obtain ⟨hq, ht⟩ := quiet_of_disconnect h (by simp [hdone, StartPc.rank]) hd
      rw [ht]
      exact inv_of_quiet hq h.absent h.others h.created h.sp h.released (fun _ => hdone)
        h.unclaimed
    · exact h
  case h_6 hc =>
    have hdone := h.bug (Or.inr (by rw [hc]; rfl))
    exact inv_of_quiet (h.joined (Or.inl hc)) h.absent h.others h.created h.sp h.released
      (fun _ => hdone) fun _ => rfl

theorem inv_stopStep {s : Lifetime} (h : s.Inv) (channelIsClosing : Bool) :
    (s.stopStep channelIsClosing).Inv := by
  unfold stopStep
  split
  next hc =>
    obtain ⟨hb, hunclaimed⟩ : s.bug = true ∧ s.cleanupStarted = false := by
      simpa [claimable] using hc
    have hdone := h.bug (Or.inl hb)
    have hkept : s.wrapper = true ∨ s.worker.usesMembers = false := by
      simpa [h.unclaimed hunclaimed] using h.kept (by simp [hdone, StartPc.rank])
    refine ⟨h.absent, h.others, h.created, h.sp, h.released,
      fun _ => hkept.imp_right Or.inr, fun _ => hkept, ?_, h.joinable, h.threadStarted,
      fun _ => hdone, nofun⟩
    rintro (hret | hdelete)
    · cases channelIsClosing <;> cases hret
    · exact absurd (hdone.symm.trans hdelete) nofun
  · exact h

theorem inv_step {s : Lifetime} (h : s.Inv) {a : LifetimeAct} (hb : ¬s.CleansUpOnWorker a) :
    (s.step a).Inv := by
  cases a with
  | start ok => exact inv_startStep h ok
  | worker env => exact inv_moves h (workerStep_moves h hb)
  | stop channelIsClosing => exact inv_stopStep h channelIsClosing
  | cleanup => exact inv_cleanupStep h
  | copy =>
    show (if s.published then { s with copies := s.copies + 1 } else s).Inv
    split
    · exact ⟨h.absent, h.others, h.created, h.sp, h.released, h.kept, h.streamer, h.joined,
        h.joinable, h.threadStarted, h.bug, h.unclaimed⟩
    · exact h
  | drop =>
    exact ⟨h.absent, h.others, h.created, h.sp, h.released, h.kept, h.streamer, h.joined,
      h.joinable, h.threadStarted, h.bug, h.unclaimed⟩

theorem run_drop (s : Lifetime) (n : Nat) :
    Run LifetimeStep s (List.replicate n .drop) { s with copies := s.copies - n } := by
  induction n generalizing s with
  | zero => exact Run.nil s
  | succ n ih =>
    have hrest := ih (s.step .drop)
    simp only [step, Nat.sub_sub, Nat.add_comm 1 n] at hrest
    exact Run.cons rfl hrest

theorem run_cleanup {s : Lifetime} {p : FailurePoint} (hw : s.worker = .errorClaim p)
    (hc : s.claimable = true) (env : ThreadEnv) :
    ∃ t, Run LifetimeStep s (List.replicate 7 (.worker env)) t ∧ t.worker = .uses p.members ∧
      t.created = s.created ∧ t.owned = (s.sp || decide (0 < s.copies)) := by
  refine ⟨_, run_foldl step s _, ?_⟩
  simp only [List.replicate, List.foldl, step, workerStep, hw, hc, if_true]
  unfold disconnectSelf
  split
  · refine ⟨trivial, rfl, ?_⟩
    simp [claim, owned]
    rfl
  · refine ⟨trivial, rfl, ?_⟩
    simp [claim, owned]
    rfl

/-- Once the worker has claimed the cleanup, and the copies are dropped, it comes back to
its members after the last owner is gone. -/
theorem unsafe_after_claim {s : Lifetime} (h : s.Inv) {a : LifetimeAct}
    (hb : s.CleansUpOnWorker a) : ∃ more, ¬Always LifetimeStep Safe s more := by
  obtain ⟨⟨p, hw⟩, hc, env, rfl⟩ := hb
  have hdone : s.start = .done := h.bug (Or.inl (by simp_all [claimable]))
  have hsp := h.released (by simp [hdone, StartPc.rank])
  have hcreated := h.created (by simp [hdone, StartPc.rank])
  obtain ⟨t, hrun, hworker, hcr, howned⟩ :=
    @run_cleanup { s with copies := s.copies - s.copies } p hw hc env
  refine ⟨List.replicate s.copies .drop ++ List.replicate 7 (.worker env), fun hsafe => ?_⟩
  have hend := hsafe _ t (List.prefix_refl _) (run_append_iff.mpr ⟨_, run_drop s _, hrun⟩)
  have hd := hend (by simp [destroyed, hcr, howned, hcreated, hsp])
  rw [hworker] at hd
  cases p <;> cases hd

theorem always_inv {acts : List LifetimeAct}
    (h : Never LifetimeStep CleansUpOnWorker fresh acts) : Always LifetimeStep Inv fresh acts := by
  refine always_of_kept ?_ inv_fresh h
  rintro s a t hi hb rfl
  exact inv_step hi hb

end Lifetime

/-- In every run of a session in which the worker's error callback never finds the bug to
close, the streamer outlives the worker's last use of a member; once it does find it, the
run can go on to a use after destruction. -/
theorem streamer_outlives_worker (acts : List LifetimeAct) :
    (Never LifetimeStep Lifetime.CleansUpOnWorker .fresh acts →
      Always LifetimeStep Lifetime.Safe .fresh acts) ∧
    (∀ s a, Never LifetimeStep Lifetime.CleansUpOnWorker .fresh acts →
      Run LifetimeStep .fresh acts s → s.CleansUpOnWorker a →
        ∃ more, ¬Always LifetimeStep Lifetime.Safe s more) := by
  constructor
  · intro h
    exact (Lifetime.always_inv h).imp fun s => Lifetime.safe_of_inv
  · intro s a h hrun hb
    exact Lifetime.unsafe_after_claim (Lifetime.always_inv h acts s (List.prefix_refl _) hrun) hb

/-- The start command has returned when the TCP connection fails; the error callback closes
the bug, the cleanup runs on the worker and drops every owner. -/
def failedConnect : List LifetimeAct :=
  List.replicate 7 (.start true) ++ List.replicate 13 (.worker ⟨some .tcpConnect, true, false⟩)

theorem worker_outlives_streamer : ¬Always LifetimeStep Lifetime.Safe .fresh failedConnect := by
  intro h
  have hend := h _ _ (List.prefix_refl _) (run_foldl Lifetime.step .fresh failedConnect)
  exact absurd (hend (by decide)) (by decide)

end ModAudioStream
