import ModAudioStream.TerminalState

namespace ModAudioStream

def FailurePoint.rank : FailurePoint → Nat
  | .dnsLookup => 7
  | .socketCreation => 6
  | .tcpConnect => 5
  | .tcpTimeout => 4
  | .tcpError => 3
  | .sslContext => 2
  | .tlsHandshake => 1
  | .handshake => 0

/-- How far the worker is from the end of `threadFunc` once the loop is not to be entered again.
`processFrame` moves back and forth between its frames and their callbacks. -/
def ThreadFuncPc.rank : ThreadFuncPc → Nat
  | .stage p => 13 + p.rank
  | .storeOpen => 12
  | .onOpen => 11
  | .openCallback => 10
  | .poll => 9
  | .frames => 8
  | .messageCallback => 8
  | .storeClosing => 7
  | .storeRunning => 6
  | .storeDisconnected p => if p = .handshake then 3 else 5
  | .loop => 5
  | .fail p => if p = .handshake then 5 else 4
  | .errorCallback p => if p = .handshake then 4 else 3
  | .sendClose => 4
  | .exchange => 3
  | .onClose _ => 2
  | .closeCallback => 1
  | .finished => 0

/-- The worker is in `processFrame` or in a callback that it makes. -/
def ThreadFuncPc.inFrames (w : ThreadFuncPc) : Bool := w == .frames || w == .messageCallback

/-- The worker is to leave its loop, or has left it. -/
def Client.Stopping (c : Client) : Prop := c.running = false ∨ c.worker.stored = true

namespace Client

/-- What a step of `disconnect` leaves alone. -/
theorem disconnectStep_frame (c : Client) (onWorker : Bool) (pc : DisconnectPc) :
    (c.disconnectStep onWorker pc).1.worker = c.worker ∧
      (c.disconnectStep onWorker pc).1.inside = c.inside ∧
      (c.disconnectStep onWorker pc).1.callers = c.callers ∧
      (c.running = false → (c.disconnectStep onWorker pc).1.running = false) := by
  cases pc with
  | join =>
    unfold disconnectStep
    dsimp only
    split
    · exact ⟨rfl, rfl, rfl, id⟩
    · exact ⟨rfl, rfl, rfl, id⟩
  | storeRunning => exact ⟨rfl, rfl, rfl, fun _ => rfl⟩
  | load | storeClosing | notify | returned => exact ⟨rfl, rfl, rfl, id⟩

theorem running_threadFuncStep {c : Client} (h : c.running = false) (env : ThreadFuncEnv) :
    (c.threadFuncStep env).running = false := by
  unfold threadFuncStep
  split
  case h_1 =>
    split
    · exact h
    · split
      · exact h
      · exact h
  case h_9 =>
    split
    · exact h
    · exact h
    · exact h
  case h_10 =>
    split
    · exact h
    · exact h
    · exact h
    · exact h
  case h_13 => rfl
  all_goals exact h

theorem stopping_threadFuncStep {c : Client} (h : c.Stopping) (env : ThreadFuncEnv) :
    (c.threadFuncStep env).Stopping := by
  rcases h with hrunning | hstored
  · exact Or.inl (running_threadFuncStep hrunning env)
  · exact Or.inr (stored_threadFuncStep hstored env).1

theorem stopping_disconnectStep {c : Client} (h : c.Stopping) (onWorker : Bool)
    (pc : DisconnectPc) : (c.disconnectStep onWorker pc).1.Stopping := by
  obtain ⟨hworker, -, -, hrunning⟩ := c.disconnectStep_frame onWorker pc
  unfold Stopping
  rw [hworker]
  exact h.imp_left hrunning

theorem stopping_step {c : Client} (h : c.Stopping) (a : ClientAct) : (c.step a).Stopping := by
  cases a with
  | worker env =>
    simp only [step]
    unfold workerStep
    split
    · exact h
    next pc _ _ => exact stopping_disconnectStep h true pc
    · split
      · exact h
      · exact stopping_threadFuncStep h env
  | caller i => exact stopping_disconnectStep h false (c.callers i)

theorem inside_threadFuncStep (c : Client) (env : ThreadFuncEnv) :
    (c.threadFuncStep env).inside = c.inside ∧ (c.threadFuncStep env).callers = c.callers := by
  unfold threadFuncStep
  cases c.worker with
  | stage p =>
    dsimp only
    split
    · exact ⟨rfl, rfl⟩
    · split
      · exact ⟨rfl, rfl⟩
      · exact ⟨rfl, rfl⟩
  | poll =>
    dsimp only
    cases env.turn <;> exact ⟨rfl, rfl⟩
  | frames =>
    dsimp only
    cases env.frame <;> exact ⟨rfl, rfl⟩
  | _ => exact ⟨rfl, rfl⟩

/-- The state is terminal only behind the worker's last store. -/
theorem terminal_threadFuncStep {c : Client} (h : c.state.terminal = true → c.worker.stored = true)
    (env : ThreadFuncEnv) (ht : (c.threadFuncStep env).state.terminal = true) :
    (c.threadFuncStep env).worker.stored = true := by
  by_cases hs : c.worker.stored = true
  · exact (stored_threadFuncStep hs env).1
  · have hsame {d : Client} (hd : d.state = c.state) (hdt : d.state.terminal = true) :
        d.worker.stored = true := absurd (h (hd ▸ hdt)) hs
    revert ht
    unfold threadFuncStep
    cases hw : c.worker with
    | stage p =>
      dsimp only
      split
      · exact hsame rfl
      · split
        · exact hsame rfl
        · exact hsame rfl
    | storeDisconnected p =>
      intro _
      cases p <;> rfl
    | exchange => exact fun _ => rfl
    | storeOpen => exact fun ht => by cases ht
    | storeClosing => exact fun ht => by cases ht
    | poll =>
      dsimp only
      cases env.turn <;> exact hsame rfl
    | frames =>
      dsimp only
      cases env.frame <;> exact hsame rfl
    | fail p | errorCallback p | onOpen | openCallback | loop | messageCallback | storeRunning
    | sendClose | onClose code | closeCallback | finished => exact hsame rfl

end Client

/-- The call has stored `running_`, or has found the state terminal. -/
def DisconnectPc.asked : DisconnectPc → Bool
  | .notify => true
  | .join => true
  | .returned => true
  | _ => false

namespace Client

/-- What the calls of `disconnect` leave behind. -/
structure Requests (c : Client) : Prop where
  terminal : c.state.terminal = true → c.worker.stored = true
  stopping : ∀ i, (c.callers i).asked = true → c.Stopping

theorem terminal_disconnectStep {c : Client} (h : c.state.terminal = true → c.worker.stored = true)
    (onWorker : Bool) (pc : DisconnectPc)
    (ht : (c.disconnectStep onWorker pc).1.state.terminal = true) : c.worker.stored = true := by
  rcases c.disconnectStep_cases onWorker pc with ⟨-, hd⟩ | ⟨-, _, _, hd⟩
  · rw [hd] at ht
    cases ht
  · rw [hd] at ht
    exact h ht

/-- A call that goes on to ask has stored `running_`, unless the state is terminal. -/
theorem stopping_of_asked {c : Client} (h : c.Requests) {i : Nat}
    (ha : (c.disconnectStep false (c.callers i)).2.asked = true) :
    (c.disconnectStep false (c.callers i)).1.Stopping := by
  cases hpc : c.callers i with
  | load =>
    rw [hpc] at ha
    by_cases hlive : c.state ≠ .disconnected ∧ c.state ≠ .closed
    · simp [disconnectStep, hlive, DisconnectPc.asked] at ha
    · refine Or.inr (h.terminal ?_)
      have hor : c.state = .disconnected ∨ c.state = .closed := by
        by_contra hnone
        exact hlive (not_or.mp hnone)
      rcases hor with hstate | hstate
      · rw [hstate]
        rfl
      · rw [hstate]
        rfl
  | storeClosing =>
    rw [hpc] at ha
    cases ha
  | storeRunning => exact Or.inl rfl
  | notify => exact stopping_disconnectStep (h.stopping i (by rw [hpc]; rfl)) false _
  | join => exact stopping_disconnectStep (h.stopping i (by rw [hpc]; rfl)) false _
  | returned => exact stopping_disconnectStep (h.stopping i (by rw [hpc]; rfl)) false _

theorem callers_workerStep (c : Client) (env : ThreadFuncEnv) :
    (c.workerStep env).callers = c.callers := by
  unfold workerStep
  split
  · rfl
  next pc _ _ => exact (c.disconnectStep_frame true pc).2.2.1
  · split
    · rfl
    · exact (c.inside_threadFuncStep env).2

theorem terminal_workerStep {c : Client} (h : c.state.terminal = true → c.worker.stored = true)
    (env : ThreadFuncEnv) (ht : (c.workerStep env).state.terminal = true) :
    (c.workerStep env).worker.stored = true := by
  revert ht
  unfold workerStep
  split
  · exact h
  next pc _ _ =>
    intro ht
    show (c.disconnectStep true pc).1.worker.stored = true
    rw [(c.disconnectStep_frame true pc).1]
    exact terminal_disconnectStep h true pc ht
  · split
    · exact h
    · exact terminal_threadFuncStep h env

theorem Requests.step {c : Client} (h : c.Requests) (a : ClientAct) : (c.step a).Requests := by
  cases a with
  | worker env =>
    refine ⟨terminal_workerStep h.terminal env, fun i hi => ?_⟩
    have hcallers : (c.step (.worker env)).callers = c.callers := c.callers_workerStep env
    rw [hcallers] at hi
    exact stopping_step (h.stopping i hi) (.worker env)
  | caller j =>
    refine ⟨fun ht => ?_, fun i hi => ?_⟩
    · show (c.disconnectStep false (c.callers j)).1.worker.stored = true
      rw [(c.disconnectStep_frame false (c.callers j)).1]
      exact terminal_disconnectStep h.terminal false (c.callers j) ht
    · by_cases hij : i = j
      · subst hij
        refine stopping_of_asked h ?_
        simpa [Client.step] using hi
      · refine stopping_step (h.stopping i ?_) (.caller j)
        simpa [Client.step, hij] using hi

end Client

end ModAudioStream
