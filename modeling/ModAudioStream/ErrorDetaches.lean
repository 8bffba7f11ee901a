import ModAudioStream.MetadataFirst

namespace ModAudioStream

/-- Where `onError_` has not been fired. -/
def LinkPc.unreported : LinkPc → Bool
  | .storeDisconnected p => p != .handshake
  | .errorLookup _ => false
  | .errorClaim _ => false
  | .errorRemove _ => false
  | .errorDisconnect _ => false
  | .errorReturn _ => false
  | .onClose => false
  | .ended => false
  | _ => true

/-- The error callback is over, or nothing but the cleanup's end is left of it. -/
def LinkPc.reported : LinkPc → Bool
  | .storeDisconnected p => p == .handshake
  | .errorDisconnect _ => true
  | .errorReturn _ => true
  | .onClose => true
  | .ended => true
  | _ => false

/-- On the way from the error callback to the end, with nothing of the cleanup left. -/
def LinkPc.leaving : LinkPc → Bool
  | .storeDisconnected p => p == .handshake
  | .errorReturn _ => true
  | .onClose => true
  | .ended => true
  | _ => false

namespace Startup

/-- Once the start command has succeeded and the worker has ended after `onError_`, the
session has no bug. -/
def Detached (s : Startup) : Prop :=
  s.start = .done → s.worker = .ended → s.errored = true → s.attached = false

/-- While the start command may still succeed, the error callback looks for the bug before it
is the channel private. -/
def MissesBug (s : Startup) : StartupAct → Prop
  | .worker _ => s.start.fails = false ∧ (∃ p, s.worker = .errorLookup p) ∧ s.bug = false
  | _ => False

/-- What holds as long as the error callback has not missed the bug. -/
structure Closing (s : Startup) : Prop where
  absent : s.start = .create ∨ s.start = .connect → s.worker = .absent
  unset : s.start ≠ .done → s.bug = false
  unreported : s.worker.unreported = true → s.errored = false
  silent : s.errored = false →
    s.worker.unreported = true ∨ s.worker = .onClose ∨ s.worker = .ended
  uncleaned : s.errored = false → s.cleanedUp = false
  unclaimed : s.errored = false ∨ (∃ p, s.worker = .errorLookup p ∨ s.worker = .errorClaim p) →
    s.cleanupStarted = false
  kept : s.start = .setPrivate ∨ s.start = .done →
    s.errored = false ∨ (∃ p, s.worker = .errorLookup p) → s.attached = true
  found : (∃ p, s.worker = .errorClaim p ∨ s.worker = .errorRemove p) → s.start = .done
  gone : s.errored = true → s.worker.reported = true → s.start = .done ∧ s.attached = false

theorem closing_fresh (useTls : Bool) (metadata : CString) : (fresh useTls metadata).Closing := by
  constructor <;> simp [fresh, LinkPc.reported, LinkPc.unreported]

/-- Before the start command has succeeded nothing has been found, so nothing removed. -/
theorem closing_start {s : Startup} (h : s.Closing) (hs : s.start ≠ .done) (next : StartPc)
    (hn : next = .create ∨ next = .connect → s.worker = .absent) {wrapper attached bug : Bool}
    (hb : next ≠ .done → bug = false)
    (ha : next = .setPrivate ∨ next = .done →
      s.errored = false ∨ (∃ p, s.worker = .errorLookup p) → attached = true) :
    ({ s with wrapper := wrapper, attached := attached, bug := bug, start := next } :
      Startup).Closing :=
  ⟨hn, hb, h.unreported, h.silent, h.uncleaned, h.unclaimed, ha,
    fun hf => absurd (h.found hf) hs, fun he hr => absurd (h.gone he hr).1 hs⟩

theorem closing_startStep {s : Startup} (h : s.Closing) (ok : Bool) :
    (s.startStep ok).start.fails = true ∨ (s.startStep ok).Closing := by
  unfold startStep
  split
  case h_1 hs =>
    have hd : s.start ≠ .done := by simp [hs]
    exact Or.inr (closing_start h hd .connect (fun _ => h.absent (Or.inl hs))
      (fun _ => h.unset hd) nofun)
  case h_2 hs =>
    have hw := h.absent (Or.inr hs)
    have he := h.unreported (by rw [hw]; rfl)
    exact Or.inr ⟨nofun, fun _ => h.unset (by simp [hs]), fun _ => he, fun _ => Or.inl rfl,
      h.uncleaned, fun _ => h.unclaimed (Or.inl he), nofun, nofun, fun _ => nofun⟩
  case h_3 hs =>
    have hd : s.start ≠ .done := by simp [hs]
    exact Or.inr (closing_start h hd .wrap nofun (fun _ => h.unset hd) nofun)
  case h_4 hs =>
    have hd : s.start ≠ .done := by simp [hs]
    exact Or.inr (closing_start h hd .init nofun (fun _ => h.unset hd) nofun)
  case h_5 hs =>
    have hd : s.start ≠ .done := by simp [hs]
    cases ok
    · exact Or.inl rfl
    · exact Or.inr (closing_start h hd .addBug nofun (fun _ => h.unset hd) nofun)
  case h_6 hs =>
    have hd : s.start ≠ .done := by simp [hs]
    cases ok
    · exact Or.inl rfl
    · exact Or.inr (closing_start h hd .setPrivate nofun (fun _ => h.unset hd) fun _ _ => rfl)
  case h_7 hs =>
    exact Or.inr (closing_start h (by simp [hs]) .done nofun (fun hd => absurd rfl hd)
      fun _ hp => h.kept (Or.inl hs) hp)
  case h_8 => exact Or.inr h
  case h_9 | h_10 => exact Or.inl rfl
  case h_11 hs =>
    split
    · exact Or.inl rfl
    · exact Or.inl (by rw [hs]; rfl)
  case h_12 hs => exact Or.inl (by rw [hs]; rfl)

theorem errored_of_reporting {s : Startup} (h : s.Closing) (hu : s.worker.unreported = false)
    (hc : s.worker ≠ .onClose) (he : s.worker ≠ .ended) : s.errored = true := by
  by_contra hf
  rcases h.silent (by simpa using hf) with hw | hw | hw
  · rw [hu] at hw
    cases hw
  · exact hc hw
  · exact he hw

/-- A step of the worker before the error callback. -/
theorem closing_silent {s : Startup} (h : s.Closing) (he : s.errored = false)
    (hne : s.worker ≠ .absent) {w : LinkPc}
    (hw : w.unreported = true ∨ w = .onClose ∨ w = .ended) {state : State} {queued : Nat}
    {accepted : List SendItem} {refused opened : Bool} :
    ({ s with state := state, queued := queued, accepted := accepted, refused := refused,
              opened := opened, worker := w } : Startup).Closing := by
  refine ⟨fun hs => absurd (h.absent hs) hne, h.unset, fun _ => he, fun _ => hw, h.uncleaned,
    fun _ => h.unclaimed (Or.inl he), fun hd _ => h.kept hd (Or.inl he), ?_, ?_⟩
  · rintro ⟨p, hp | hp⟩
    · have hw' : w = .errorClaim p := hp
      simp [hw', LinkPc.unreported] at hw
    · have hw' : w = .errorRemove p := hp
      simp [hw', LinkPc.unreported] at hw
  · intro he'
    rw [show s.errored = true from he'] at he
    cases he

/-- A step of the worker once the bug is removed. -/
theorem closing_reported {s : Startup} (he : s.errored = true) (hs : s.start = .done) {w : LinkPc}
    (hw : w.reported = true) {state : State}
    {cleanedUp attached : Bool} (ha : attached = false) :
    ({ s with state := state, cleanedUp := cleanedUp, attached := attached, worker := w } :
      Startup).Closing := by
  have hlook : ¬∃ p, w = .errorLookup p ∨ w = .errorClaim p ∨ w = .errorRemove p := by
    rintro ⟨p, rfl | rfl | rfl⟩ <;> cases hw
  have hnot : ¬s.errored = false := by simp [he]
  have hcreate : ¬(s.start = .create ∨ s.start = .connect) := by simp [hs]
  refine ⟨fun hc => absurd hc hcreate, fun hd => absurd hs hd, ?_, fun hf => absurd hf hnot,
    fun hf => absurd hf hnot, ?_, ?_, fun _ => hs, fun _ _ => ⟨hs, ha⟩⟩
  · intro hu
    cases w <;> simp_all [LinkPc.unreported, LinkPc.reported]
  · rintro (hf | ⟨p, hp | hp⟩)
    · exact absurd hf hnot
    · exact absurd ⟨p, Or.inl hp⟩ hlook
    · exact absurd ⟨p, Or.inr (Or.inl hp)⟩ hlook
  · rintro - (hf | ⟨p, hp⟩)
    · exact absurd hf hnot
    · exact absurd ⟨p, Or.inl hp⟩ hlook

/-- The error callback is called on a streamer that no error has reached. -/
theorem closing_fail {s : Startup} (h : s.Closing) (he : s.errored = false)
    (hne : s.worker ≠ .absent) (p : FailurePoint) :
    ({ s with worker := .errorLookup p, errored := true } : Startup).Closing where
  absent hc := absurd (h.absent hc) hne
  unset := h.unset
  unreported := nofun
  silent := nofun
  uncleaned := nofun
  unclaimed _ := h.unclaimed (Or.inl he)
  kept hd _ := h.kept hd (Or.inl he)
  found := by
    rintro ⟨q, hq | hq⟩
    · cases hq
    · cases hq
  gone _ := nofun

/-- It finds the bug of a start command that has succeeded. -/
theorem closing_errorLookup {s : Startup} (h : s.Closing) (he : s.errored = true) {p : FailurePoint}
    (hw : s.worker = .errorLookup p) (hbug : s.bug = true) :
    ({ s with closeRequested := true, worker := .errorClaim p } : Startup).Closing := by
  have hd : s.start = .done := by
    by_contra hd
    rw [h.unset hd] at hbug
    cases hbug
  have hnot : ∀ {P : Prop}, s.errored = false → P := fun hf => by simp [he] at hf
  exact {
    absent := fun hc => absurd hc (by simp [hd])
    unset := fun hc => absurd hd hc
    unreported := nofun
    silent := hnot
    uncleaned := h.uncleaned
    unclaimed := fun _ => h.unclaimed (Or.inr ⟨p, Or.inl hw⟩)
    kept := fun hk _ => h.kept hk (Or.inr ⟨p, hw⟩)
    found := fun _ => hd
    gone := fun _ => nofun }

/-- It claims the cleanup. -/
theorem closing_errorClaim {s : Startup} (h : s.Closing) (he : s.errored = true) {p : FailurePoint}
    (hw : s.worker = .errorClaim p) :
    ({ s with cleanupStarted := true, bug := false, wrapper := false, worker := .errorRemove p } :
      Startup).Closing := by
  have hd : s.start = .done := h.found ⟨p, Or.inl hw⟩
  have hnot : ∀ {P : Prop}, s.errored = false → P := fun hf => by simp [he] at hf
  exact {
    absent := fun hc => absurd hc (by simp [hd])
    unset := fun _ => rfl
    unreported := nofun
    silent := hnot
    uncleaned := hnot
    unclaimed := by
      rintro (hf | ⟨q, hq | hq⟩)
      · exact hnot hf
      · cases hq
      · cases hq
    kept := by
      rintro - (hf | ⟨q, hq⟩)
      · exact hnot hf
      · cases hq
    found := fun _ => hd
    gone := fun _ => nofun }

theorem closing_workerStep {s : Startup} (h : s.Closing)
    (hlook : ∀ p, s.worker = .errorLookup p → s.bug = true) (env : LinkEnv) :
    (s.workerStep env).Closing := by
  have hsilent : s.worker.unreported = true → s.worker ≠ .absent → ∀ {w : LinkPc},
      w.unreported = true ∨ w = .onClose ∨ w = .ended → ∀ {state : State} {queued : Nat}
      {accepted : List SendItem} {refused opened : Bool},
      ({ s with state := state, queued := queued, accepted := accepted, refused := refused,
                opened := opened, worker := w } : Startup).Closing :=
    fun hu hne _ hw _ _ _ _ _ => closing_silent h (h.unreported hu) hne hw
  unfold workerStep
  split
  case h_1 => exact h
  case h_2 p hw =>
    have hs := @hsilent (by rw [hw]; rfl) (by simp [hw])
    split
    · cases p <;> exact hs (Or.inl rfl)
    · split <;> exact hs (Or.inl rfl)
  case h_3 hw => exact hsilent (by rw [hw]; rfl) (by simp [hw]) (Or.inl rfl)
  case h_4 hw | h_5 hw | h_7 hw =>
    have hs := @hsilent (by rw [hw]; rfl) (by simp [hw])
    split <;> exact hs (Or.inl rfl)
  case h_6 hw =>
    have hs := @hsilent (by rw [hw]; rfl) (by simp [hw])
    dsimp only
    split <;> exact hs (Or.inl rfl)
  case h_8 hw =>
    have hs := @hsilent (by rw [hw]; rfl) (by simp [hw])
    split <;> exact hs (Or.inl rfl)
  case h_9 hw =>
    have hs := @hsilent (by rw [hw]; rfl) (by simp [hw])
    split
    · exact hs (Or.inr (Or.inl rfl))
    · exact hs (Or.inl (by rw [hw]; rfl))
  case h_10 p hw =>
    by_cases hp : p = .handshake
    · subst hp
      have he := errored_of_reporting h (by rw [hw]; rfl) (by simp [hw]) (by simp [hw])
      obtain ⟨hd, ha⟩ := h.gone he (by rw [hw]; rfl)
      exact closing_reported he hd rfl ha
    · have hs := @hsilent (by simp [hw, LinkPc.unreported, hp]) (by simp [hw])
      cases p <;> first | exact hs (Or.inl rfl) | exact absurd rfl hp
  case h_11 p hw =>
    have he := h.unreported (by rw [hw]; rfl)
    rw [if_neg (by simp [h.uncleaned he])]
    exact closing_fail h he (by simp [hw]) p
  case h_12 p hw =>
    have he := errored_of_reporting h (by rw [hw]; rfl) (by simp [hw]) (by simp [hw])
    have hbug := hlook p hw
    rw [if_pos hbug]
    exact closing_errorLookup h he hw hbug
  case h_13 p hw =>
    have he := errored_of_reporting h (by rw [hw]; rfl) (by simp [hw]) (by simp [hw])
    rw [if_neg (by simp [h.unclaimed (Or.inr ⟨p, Or.inr hw⟩)])]
    exact closing_errorClaim h he hw
  case h_14 p hw =>
    have he := errored_of_reporting h (by rw [hw]; rfl) (by simp [hw]) (by simp [hw])
    exact closing_reported he (h.found ⟨p, Or.inr hw⟩) rfl rfl
  case h_15 p hw =>
    have he := errored_of_reporting h (by rw [hw]; rfl) (by simp [hw]) (by simp [hw])
    obtain ⟨hd, ha⟩ := h.gone he (by rw [hw]; rfl)
    unfold requestClose
    split <;> exact closing_reported he hd rfl ha
  case h_16 p hw =>
    have he := errored_of_reporting h (by rw [hw]; rfl) (by simp [hw]) (by simp [hw])
    obtain ⟨hd, ha⟩ := h.gone he (by rw [hw]; rfl)
    cases p <;> exact closing_reported he hd rfl ha
  case h_17 hw =>
    by_cases he : s.errored = true
    · obtain ⟨hd, ha⟩ := h.gone he (by rw [hw]; rfl)
      exact closing_reported he hd rfl ha
    · exact closing_silent h (by simpa using he) (by simp [hw]) (Or.inr (Or.inr rfl))
  case h_18 => exact h

/-- The media thread only takes chunks and puts them on the queue. -/
theorem mediaStep_moves (s : Startup) (chunks : List (List UInt8)) :
    ∃ media queued accepted,
      s.mediaStep chunks = { s with media := media, queued := queued, accepted := accepted } := by
  unfold mediaStep
  split
  case h_1 =>
    split
    · exact ⟨_, _, _, rfl⟩
    · exact ⟨_, _, _, rfl⟩
  case h_6 =>
    split
    · exact ⟨_, _, _, rfl⟩
    · exact ⟨_, _, _, rfl⟩
  all_goals exact ⟨_, _, _, rfl⟩

theorem closing_mediaStep {s : Startup} (h : s.Closing) (chunks : List (List UInt8)) :
    (s.mediaStep chunks).Closing := by
  obtain ⟨media, queued, accepted, hs⟩ := mediaStep_moves s chunks
  rw [hs]
  exact ⟨h.absent, h.unset, h.unreported, h.silent, h.uncleaned, h.unclaimed, h.kept, h.found,
    h.gone⟩

def ClosingOrFails (s : Startup) : Prop := s.start.fails = true ∨ s.Closing

theorem closingOrFails_step {s : Startup} (h : s.ClosingOrFails) {a : StartupAct}
    (ha : ¬s.MissesBug a) : (s.step a).ClosingOrFails := by
  cases a with
  | start ok =>
    rcases h with hf | hc
    · exact Or.inl (fails_startStep hf ok)
    · exact closing_startStep hc ok
  | worker env =>
    have hstart := (workerStep_beside s env).start
    cases hf : s.start.fails with
    | true => exact Or.inl ((congrArg StartPc.fails hstart).trans hf)
    | false =>
      refine Or.inr (closing_workerStep (h.resolve_left (by simp [hf])) (fun p hw => ?_) env)
      by_contra hbug
      exact ha ⟨hf, ⟨p, hw⟩, by simpa using hbug⟩
  | media chunks =>
    have hstart := (mediaStep_beside s chunks).1.start
    rcases h with hf | hc
    · exact Or.inl ((congrArg StartPc.fails hstart).trans hf)
    · exact Or.inr (closing_mediaStep hc chunks)

theorem detached_of_closing {s : Startup} (h : s.ClosingOrFails) : s.Detached := by
  intro hdone hw he
  rcases h with hf | hc
  · rw [hdone] at hf
    cases hf
  · exact (hc.gone he (by rw [hw]; rfl)).2

/-- The error callback has missed the bug, which the start command attaches for good. -/
structure Stranded (s : Startup) : Prop where
  leaving : s.worker.leaving = true
  started : ¬(s.start = .create ∨ s.start = .connect)
  kept : s.start = .setPrivate ∨ s.start = .done → s.attached = true

theorem stranded_of_missesBug {s : Startup} (h : s.Closing) {a : StartupAct}
    (ha : s.MissesBug a) : (s.step a).Stranded := by
  cases a with
  | worker env =>
    obtain ⟨-, ⟨p, hw⟩, hbug⟩ := ha
    simp only [step, workerStep, hw, hbug]
    refine ⟨rfl, fun hs => ?_, fun hs => h.kept hs (Or.inr ⟨p, hw⟩)⟩
    have hw' := h.absent hs
    rw [hw] at hw'
    cases hw'
  | start ok => exact ha.elim
  | media chunks => exact ha.elim

theorem stranded_startStep {s : Startup} (h : s.Stranded) (ok : Bool) :
    (s.startStep ok).Stranded := by
  obtain ⟨hw, hs⟩ := startStep_late h.started ok
  refine ⟨by rw [hw]; exact h.leaving, hs, ?_⟩
  unfold startStep
  split
  case h_5 => cases ok <;> nofun
  case h_6 =>
    cases ok
    · nofun
    · exact fun _ => rfl
  case h_7 hs => exact fun _ => h.kept (Or.inl hs)
  case h_8 | h_12 => exact h.kept
  case h_11 =>
    split
    · nofun
    · exact h.kept
  all_goals nofun

theorem stranded_step {s : Startup} (h : s.Stranded) (a : StartupAct) : (s.step a).Stranded := by
  cases a with
  | start ok => exact stranded_startStep h ok
  | worker env =>
    have hleaving := h.leaving
    simp only [step]
    unfold workerStep
    split
    case h_10 p hw =>
      rw [hw] at hleaving
      refine ⟨?_, h.started, h.kept⟩
      cases p <;> first | rfl | cases hleaving
    case h_16 p _ =>
      refine ⟨?_, h.started, h.kept⟩
      cases p <;> rfl
    case h_17 => exact ⟨rfl, h.started, h.kept⟩
    case h_18 => exact h
    all_goals
      next hw =>
        rw [hw] at hleaving
        cases hleaving
  | media chunks =>
    obtain ⟨media, queued, accepted, hs⟩ := mediaStep_moves s chunks
    simp only [step, hs]
    exact ⟨h.leaving, h.started, h.kept⟩

end Startup

/-- In every run in which the error callback does not miss the bug, a failed connection leaves
the session without one; after it has missed it, a start command that succeeds leaves the bug
attached for ever. -/
theorem failed_connection_detaches (useTls : Bool) (metadata : CString) (acts : List StartupAct) :
    (Never StartupStep Startup.MissesBug (.fresh useTls metadata) acts →
      Always StartupStep Startup.Detached (.fresh useTls metadata) acts) ∧
    (Never StartupStep Startup.MissesBug (.fresh useTls metadata) acts →
      ∀ s a more t, Run StartupStep (.fresh useTls metadata) acts s → s.MissesBug a →
        Run StartupStep s (a :: more) t → t.start = .done → t.attached = true) := by
  have hgood : Never StartupStep Startup.MissesBug (.fresh useTls metadata) acts →
      Always StartupStep Startup.ClosingOrFails (.fresh useTls metadata) acts := by
    intro hnever
    refine always_of_kept ?_ (Or.inr (Startup.closing_fresh useTls metadata)) hnever
    rintro s a t hs ha rfl
    exact Startup.closingOrFails_step hs ha
  constructor
  · exact fun hnever => (hgood hnever).imp fun s => Startup.detached_of_closing
  · intro hnever s a more t hrun ha hmore hdone
    have hs := hgood hnever acts s (List.prefix_refl _) hrun
    have hc : s.Closing := by
      cases a with
      | worker env => exact hs.resolve_left (by simp [ha.1])
      | start ok => exact ha.elim
      | media chunks => exact ha.elim
    obtain ⟨u, rfl, hrest⟩ := run_cons_iff.mp hmore
    have hstranded := Startup.stranded_of_missesBug hc ha
    have ht : t.Stranded := by
      refine hrest.invariant ?_ hstranded
      rintro s a t hs rfl
      exact Startup.stranded_step hs a
    exact ht.kept (Or.inr hdone)

/-- The host name is not found before the start command has added the bug. -/
def failsEarly : List StartupAct :=
  List.replicate 2 (.start true) ++
    List.replicate 6 (.worker ⟨true, false, false, 0, []⟩) ++ List.replicate 5 (.start true)

theorem failed_connection_keeps_bug :
    ¬Always StartupStep Startup.Detached (.fresh false ⟨[], nofun⟩) failsEarly := by
  intro h
  have hend := h _ _ (List.prefix_refl _) (run_foldl Startup.step _ failsEarly)
  exact absurd (hend rfl rfl rfl) (by decide)

end ModAudioStream
