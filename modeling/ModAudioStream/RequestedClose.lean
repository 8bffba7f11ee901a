import ModAudioStream.ClientStates

namespace ModAudioStream

namespace ThreadFuncPc

/-- Up to the end of the handshake, or on the way out of it. -/
def connecting : ThreadFuncPc → Bool
  | .stage _ => true
  | .storeDisconnected _ => true
  | .fail _ => true
  | .errorCallback _ => true
  | _ => false

/-- Between the store of `OPEN` and the exchange. -/
def serving : ThreadFuncPc → Bool
  | .onOpen => true
  | .openCallback => true
  | .loop => true
  | .poll => true
  | .frames => true
  | .messageCallback => true
  | .storeClosing => true
  | .storeRunning => true
  | .sendClose => true
  | .exchange => true
  | _ => false

end ThreadFuncPc

namespace Client

/-- Once another thread has stored `CLOSING`, the client is not `OPEN`, `onOpen_` is not
fired, and behind a passed handshake `onClose_` does not report 1006. -/
def Heeds (c : Client) : Prop :=
  c.requested = true → c.state ≠ .opened ∧ ClientEvent.opened ∉ c.after ∧
    (c.passed = true → ClientEvent.closed 1006 ∉ c.fired)

/-- `onClose_` has reported 1006 behind a passed handshake, or is about to. -/
def Dropped (c : Client) : Prop :=
  c.passed = true ∧ (c.worker = .onClose 1006 ∨ ClientEvent.closed 1006 ∈ c.fired)

/-- The worker stores `OPEN` over a `CLOSING`; or another thread stores `CLOSING` between
the store of `OPEN` and `onOpen_`, or after the exchange that has not found `CLOSING`. -/
def Overrun (c : Client) : ClientAct → Prop
  | .worker _ => c.requested = true ∧ c.worker = .storeOpen
  | .caller i => c.callers i = .storeClosing ∧ (c.worker = .onOpen ∨ c.Dropped)

structure Recorded (c : Client) : Prop where
  connecting : c.worker.connecting = true → c.passed = false ∧ ∀ code, .closed code ∉ c.fired
  quiet : c.requested = false → c.after = []
  inside : c.inside.isSome → c.worker.inCallback = true

/-- What a request leaves behind as long as no step overruns it. -/
structure Asked (c : Client) : Prop where
  notOpened : c.state ≠ .opened
  pending : c.worker ≠ .onOpen
  closing : c.worker.serving = true → c.state = .closing
  after : ClientEvent.opened ∉ c.after
  notDropped : ¬c.Dropped

theorem heeds_of_asked {c : Client} (h : c.requested = true → c.Asked) : c.Heeds := fun hr =>
  ⟨(h hr).notOpened, (h hr).after, fun hp hc => (h hr).notDropped ⟨hp, Or.inr hc⟩⟩

theorem recorded_start (useTls : Bool) : (start useTls).Recorded :=
  ⟨fun _ => ⟨rfl, fun _ => List.not_mem_nil⟩, fun _ => rfl, nofun⟩

theorem recorded_move {c : Client} (h : c.Recorded) (hin : c.inside = none) (state : State)
    (running : Bool) {w : ThreadFuncPc} (hw : w.connecting = true → c.worker.connecting = true) :
    ({ c with state := state, running := running, worker := w } : Client).Recorded :=
  ⟨fun hc => h.connecting (hw hc), h.quiet, by simp [hin]⟩

theorem recorded_fire {c : Client} (h : c.Recorded) (hin : c.inside = none) {e : ClientEvent}
    {w : ThreadFuncPc} (hw : w.connecting = true → c.worker.connecting = true ∧ e = .error) :
    ({ c.fire e with worker := w } : Client).Recorded := by
  refine ⟨fun hc => ?_, fun hq => ?_, by simp [fire, hin]⟩
  · obtain ⟨hcw, rfl⟩ := hw hc
    obtain ⟨hp, hf⟩ := h.connecting hcw
    exact ⟨hp, by simpa [fire] using hf⟩
  · have hr : c.requested = false := hq
    simp [fire, hr, h.quiet hr]

theorem recorded_threadFuncStep {c : Client} (h : c.Recorded) (hin : c.inside = none)
    (env : ThreadFuncEnv) : (c.threadFuncStep env).Recorded := by
  unfold threadFuncStep
  split
  case h_1 p hw =>
    obtain ⟨hp, hf⟩ := h.connecting (by rw [hw]; rfl)
    split
    · exact recorded_move h hin _ _ fun _ => by rw [hw]; rfl
    · split
      · exact recorded_move h hin _ _ fun _ => by rw [hw]; rfl
      · exact ⟨nofun, h.quiet, by simp [hin]⟩
  case h_2 hw | h_4 hw => exact recorded_move h hin _ _ fun _ => by rw [hw]; rfl
  case h_3 hw => exact recorded_fire h hin fun _ => ⟨by rw [hw]; rfl, rfl⟩
  case h_5 | h_7 | h_11 | h_12 | h_13 | h_14 | h_15 | h_17 => exact recorded_move h hin _ _ nofun
  case h_6 | h_16 => exact recorded_fire h hin nofun
  case h_8 =>
    refine recorded_move h hin _ _ fun hn => ?_
    split at hn <;> cases hn
  case h_9 => split <;> exact recorded_move h hin _ _ nofun
  case h_10 =>
    split
    · exact recorded_move h hin _ _ nofun
    · exact recorded_move h hin _ _ nofun
    · exact recorded_move h hin _ _ nofun
    · exact h
  case h_18 => exact h

/-- A step of `disconnect` stores `CLOSING`, or leaves `state_` alone. -/
theorem disconnectStep_cases (c : Client) (onWorker : Bool) (pc : DisconnectPc) :
    (pc = .storeClosing ∧ (c.disconnectStep onWorker pc).1 =
      { c with state := .closing, requested := c.requested || !onWorker }) ∨
    (pc ≠ .storeClosing ∧ ∃ running threadStarted, (c.disconnectStep onWorker pc).1 =
      { c with running := running, threadStarted := threadStarted }) := by
  cases pc with
  | storeClosing => exact Or.inl ⟨rfl, rfl⟩
  | join =>
    refine Or.inr ⟨nofun, ?_⟩
    unfold disconnectStep
    dsimp only
    split
    · exact ⟨c.running, c.threadStarted, rfl⟩
    · exact ⟨c.running, false, rfl⟩
  | storeRunning => exact Or.inr ⟨nofun, false, c.threadStarted, rfl⟩
  | _ => exact Or.inr ⟨nofun, c.running, c.threadStarted, rfl⟩

theorem recorded_step {c : Client} (h : c.Recorded) (a : ClientAct) : (c.step a).Recorded := by
  cases a with
  | worker env =>
    simp only [step]
    unfold workerStep
    split
    next => exact ⟨h.connecting, h.quiet, nofun⟩
    next pc _ hin =>
      have hcb := h.inside (by rw [hin]; rfl)
      rcases c.disconnectStep_cases true pc with ⟨-, hd⟩ | ⟨-, _, _, hd⟩
      · rw [hd]
        exact ⟨h.connecting, fun hq => h.quiet (by simpa using hq), fun _ => hcb⟩
      · rw [hd]
        exact ⟨h.connecting, h.quiet, fun _ => hcb⟩
    next hin =>
      split
      next hc => exact ⟨h.connecting, h.quiet, fun _ => hc.1⟩
      next => exact recorded_threadFuncStep h hin env
  | caller i =>
    simp only [step]
    rcases c.disconnectStep_cases false (c.callers i) with ⟨-, hd⟩ | ⟨-, _, _, hd⟩
    · rw [hd]
      exact ⟨h.connecting, fun hq => by simp at hq, h.inside⟩
    · rw [hd]
      exact ⟨h.connecting, h.quiet, h.inside⟩

theorem asked_move {c : Client} (h : c.Asked) {state : State} (running : Bool) {w : ThreadFuncPc}
    (hs : state ≠ .opened) (ho : w ≠ .onOpen) (hw : w.serving = true → state = .closing)
    (hc : w = .onClose 1006 → c.passed = false) :
    ({ c with state := state, running := running, worker := w } : Client).Asked := by
  refine ⟨hs, ho, hw, h.after, ?_⟩
  rintro ⟨hp, hd | hd⟩
  · have hp' : c.passed = true := hp
    rw [hc hd] at hp'
    cases hp'
  · exact h.notDropped ⟨hp, Or.inr hd⟩

theorem asked_fire {c : Client} (h : c.Asked) {e : ClientEvent} {w : ThreadFuncPc}
    (he : e ≠ .opened) (hc : c.passed = true → e ≠ .closed 1006) (ho : w ≠ .onOpen)
    (hw : w.serving = false) (hd : w ≠ .onClose 1006) :
    ({ c.fire e with worker := w } : Client).Asked := by
  refine ⟨h.notOpened, ho, fun hs => ?_, ?_, ?_⟩
  · rw [hw] at hs
    cases hs
  · have hafter := h.after
    simp only [fire]
    split
    · simp [hafter, he.symm]
    · exact hafter
  · rintro ⟨hp, hd' | hd'⟩
    · exact hd hd'
    · rcases List.mem_append.mp hd' with hd' | hd'
      · exact h.notDropped ⟨hp, Or.inr hd'⟩
      · exact hc hp (List.mem_singleton.mp hd').symm

theorem asked_threadFuncStep {c : Client} (hrec : c.Recorded) (h : c.Asked)
    (hopen : c.worker ≠ .storeOpen) (env : ThreadFuncEnv) : (c.threadFuncStep env).Asked := by
  unfold threadFuncStep
  split
  case h_1 p hw =>
    obtain ⟨hp, hf⟩ := hrec.connecting (by rw [hw]; rfl)
    split
    · refine asked_move h _ h.notOpened ?_ ?_ fun _ => hp
      · cases p <;> nofun
      · cases p <;> nofun
    · split
      · exact asked_move h _ h.notOpened nofun nofun fun _ => hp
      · refine ⟨h.notOpened, nofun, nofun, h.after, ?_⟩
        rintro ⟨-, hd | hd⟩
        · cases hd
        · exact hf 1006 hd
  case h_2 p hw =>
    obtain ⟨hp, -⟩ := hrec.connecting (by rw [hw]; rfl)
    refine asked_move h _ nofun ?_ ?_ fun _ => hp
    · cases p <;> nofun
    · cases p <;> nofun
  case h_3 => exact asked_fire h nofun (fun _ => nofun) nofun rfl nofun
  case h_4 p hw =>
    obtain ⟨hp, -⟩ := hrec.connecting (by rw [hw]; rfl)
    refine asked_move h _ h.notOpened ?_ ?_ fun _ => hp
    · cases p <;> nofun
    · cases p <;> nofun
  case h_5 hw => exact absurd hw hopen
  case h_6 hw => exact absurd hw h.pending
  case h_7 hw | h_11 hw | h_13 hw | h_14 hw =>
    exact asked_move h _ h.notOpened nofun (fun _ => h.closing (by rw [hw]; rfl)) nofun
  case h_8 hw =>
    have hcl := h.closing (by rw [hw]; rfl)
    refine asked_move h _ h.notOpened ?_ (fun _ => hcl) ?_
    · split <;> nofun
    · split <;> nofun
  case h_9 hw =>
    have hcl := h.closing (by rw [hw]; rfl)
    split <;> exact asked_move h _ h.notOpened nofun (fun _ => hcl) nofun
  case h_10 hw =>
    have hcl := h.closing (by rw [hw]; rfl)
    split
    · exact asked_move h _ h.notOpened nofun (fun _ => hcl) nofun
    · exact asked_move h _ h.notOpened nofun (fun _ => hcl) nofun
    · exact asked_move h _ h.notOpened nofun (fun _ => hcl) nofun
    · exact h
  case h_12 => exact asked_move h _ nofun nofun (fun _ => rfl) nofun
  case h_15 hw =>
    rw [if_pos (h.closing (by rw [hw]; rfl))]
    exact asked_move h _ nofun nofun nofun nofun
  case h_16 code hw =>
    refine asked_fire h nofun (fun hp he => ?_) nofun rfl nofun
    exact h.notDropped ⟨hp, Or.inl (hw.trans (congrArg _ (ClientEvent.closed.inj he)))⟩
  case h_17 => exact asked_move h _ h.notOpened nofun nofun nofun
  case h_18 => exact h

theorem requested_threadFuncStep (c : Client) (env : ThreadFuncEnv) :
    (c.threadFuncStep env).requested = c.requested := by
  unfold threadFuncStep
  split
  case h_1 =>
    split
    · rfl
    · split <;> rfl
  case h_9 | h_10 => split <;> rfl
  all_goals rfl

theorem asked_step {c : Client} (hrec : c.Recorded) (h : c.requested = true → c.Asked)
    {a : ClientAct} (ha : ¬c.Overrun a) (hr : (c.step a).requested = true) : (c.step a).Asked := by
  cases a with
  | worker env =>
    revert hr
    simp only [step]
    unfold workerStep
    split
    next =>
      intro hr
      obtain ⟨hst, hpe, hcl, haf, hdr⟩ := h hr
      exact ⟨hst, hpe, hcl, haf, hdr⟩
    next pc _ hin =>
      rcases c.disconnectStep_cases true pc with ⟨-, hd⟩ | ⟨-, _, _, hd⟩
      · rw [hd]
        intro hr
        obtain ⟨hst, hpe, hcl, haf, hdr⟩ := h (by simpa using hr)
        exact ⟨nofun, hpe, fun _ => rfl, haf, hdr⟩
      · rw [hd]
        intro hr
        obtain ⟨hst, hpe, hcl, haf, hdr⟩ := h hr
        exact ⟨hst, hpe, hcl, haf, hdr⟩
    next hin =>
      split
      next hc =>
        intro hr
        obtain ⟨hst, hpe, hcl, haf, hdr⟩ := h hr
        exact ⟨hst, hpe, hcl, haf, hdr⟩
      next =>
        intro hr
        rw [requested_threadFuncStep] at hr
        exact asked_threadFuncStep hrec (h hr) (fun hw => ha ⟨hr, hw⟩) env
  | caller i =>
    revert hr
    simp only [step]
    rcases c.disconnectStep_cases false (c.callers i) with ⟨hpc, hd⟩ | ⟨-, _, _, hd⟩
    · rw [hd]
      intro _
      refine ⟨nofun, fun ho => ha ⟨hpc, Or.inl ho⟩, fun _ => rfl, ?_,
        fun hdr => ha ⟨hpc, Or.inr hdr⟩⟩
      by_cases hr : c.requested = true
      · exact (h hr).after
      · rw [hrec.quiet (by simpa using hr)]
        exact List.not_mem_nil
    · rw [hd]
      intro hr
      obtain ⟨hst, hpe, hcl, haf, hdr⟩ := h hr
      exact ⟨hst, hpe, hcl, haf, hdr⟩

/-- A step of the worker while it is in no callback. -/
theorem step_worker {c : Client} (h : c.Recorded) (hw : c.worker.inCallback = false)
    (env : ThreadFuncEnv) : c.step (.worker env) = c.threadFuncStep env := by
  have hin : c.inside = none := by
    rw [← Option.not_isSome_iff_eq_none]
    intro hs
    rw [h.inside hs] at hw
    cases hw
  simp [step, workerStep, hin, hw]

theorem step_storeClosing {c : Client} {i : Nat} (hpc : c.callers i = .storeClosing) :
    (c.step (.caller i)).worker = c.worker ∧ (c.step (.caller i)).requested = true ∧
      (c.step (.caller i)).passed = c.passed ∧ (c.step (.caller i)).fired = c.fired := by
  simp [step, disconnectStep, hpc]

theorem step_onOpen {c : Client} (h : c.Recorded) (hw : c.worker = .onOpen) (env : ThreadFuncEnv) :
    c.step (.worker env) = { c.fire .opened with worker := .openCallback } := by
  rw [step_worker h (by rw [hw]; rfl)]
  simp [threadFuncStep, hw]

theorem step_onClose {c : Client} (h : c.Recorded) {code : Nat} (hw : c.worker = .onClose code)
    (env : ThreadFuncEnv) :
    c.step (.worker env) = { c.fire (.closed code) with worker := .closeCallback } := by
  rw [step_worker h (by rw [hw]; rfl)]
  simp [threadFuncStep, hw]

def quietTurn : ThreadFuncEnv := ⟨false, false, .again, .none, false⟩

/-- The worker's next step shows what a step that overruns has done, at the latest. -/
theorem not_heeds_after_overrun {c : Client} (h : c.Recorded) {a : ClientAct} (ha : c.Overrun a) :
    ∃ more, ¬Always ClientStep Heeds c more := by
  refine ⟨[a, .worker quietTurn], fun hall => ?_⟩
  have hnow := hall [a] _ (List.prefix_append [a] [.worker quietTurn]) (Run.cons rfl (Run.nil _))
  have hnext := hall _ _ (List.prefix_refl _) (Run.cons rfl (Run.cons rfl (Run.nil _)))
  have hrec := recorded_step h a
  cases a with
  | worker env =>
    obtain ⟨hr, hw⟩ := ha
    rw [step_worker h (by rw [hw]; rfl)] at hnow
    simp only [threadFuncStep, hw] at hnow
    exact (hnow hr).1 rfl
  | caller i =>
    obtain ⟨hpc, hbad⟩ := ha
    obtain ⟨hworker, hr, hpassed, hfired⟩ := step_storeClosing hpc
    rcases hbad with hw | ⟨hp, hw | hf⟩
    · rw [step_onOpen hrec (hworker.trans hw)] at hnext
      exact (hnext hr).2.1 (by simp [fire, hr])
    · rw [step_onClose hrec (hworker.trans hw)] at hnext
      exact (hnext hr).2.2 (hpassed.trans hp) (by simp [fire])
    · exact (hnow hr).2.2 (hpassed.trans hp) (hfired ▸ hf)

end Client

/-- In every run in which no step overruns a request, each request is heeded; after a step
that does, the run can go on to an `OPEN` client, a late `onOpen_` or a close with 1006. -/
theorem disconnect_is_heeded (useTls : Bool) (acts : List ClientAct) :
    (Never ClientStep Client.Overrun (.start useTls) acts →
      Always ClientStep Client.Heeds (.start useTls) acts) ∧
    (∀ c a, Run ClientStep (.start useTls) acts c → c.Overrun a →
      ∃ more, ¬Always ClientStep Client.Heeds c more) := by
  have keep : ∀ (c : Client) (a : ClientAct) (d : Client), c.Recorded → ClientStep c a d →
      d.Recorded := by
    rintro c a d hrec rfl
    exact Client.recorded_step hrec a
  have hstart := Client.recorded_start useTls
  refine ⟨fun h => ?_, fun c a hrun ha => ?_⟩
  · have hasked := always_of_never (P := fun c => c.requested = true → c.Asked) keep
      (by rintro c a d hrec hc ha rfl; exact Client.asked_step hrec hc ha) hstart nofun h
    exact hasked.imp fun c => Client.heeds_of_asked
  · exact Client.not_heeds_after_overrun (hrun.invariant keep hstart) ha

/-- `disconnect` comes while the host name is looked up. -/
def disconnectInLookup : List ClientAct :=
  [.caller 0, .caller 0] ++ List.replicate 5 (.worker Client.quietTurn)

theorem disconnect_in_lookup_is_lost :
    ¬Always ClientStep Client.Heeds (.start false) disconnectInLookup := by
  intro h
  have hend := h _ _ (List.prefix_refl _) (run_foldl Client.step (.start false) disconnectInLookup)
  exact absurd rfl (hend (by decide)).1

end ModAudioStream
