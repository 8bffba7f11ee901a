import ModAudioStream.RequestedClose

namespace ModAudioStream

/-- Behind the worker's last store to `state_`. -/
def ThreadFuncPc.stored : ThreadFuncPc → Bool
  | .fail p => p != .handshake
  | .errorCallback p => p != .handshake
  | .onClose _ => true
  | .closeCallback => true
  | .finished => true
  | _ => false

def State.terminal (s : State) : Bool := s == .disconnected || s == .closed

namespace Client

/-- The worker has finished and no `disconnect` is in progress. -/
def Quiescent (c : Client) : Prop :=
  c.worker = .finished ∧ c.inside = none ∧ ∀ i, (c.callers i).inProgress = false

def Terminal (c : Client) : Prop := c.Quiescent → c.state.terminal = true

/-- Another thread, which has seen the client alive, stores `CLOSING` after the worker's last
store. -/
def StoresLate (c : Client) : ClientAct → Prop
  | .worker _ => False
  | .caller i => c.callers i = .storeClosing ∧ c.worker.stored = true

/-- What the worker's last store leaves behind as long as nobody stores after it. -/
def Settled (c : Client) : Prop :=
  c.worker.stored = true → c.state.terminal = true ∧ c.inside ≠ some .storeClosing

theorem disconnectStep_next {c : Client} {onWorker : Bool} {pc : DisconnectPc}
    (hs : c.state.terminal = true) : (c.disconnectStep onWorker pc).2 ≠ .storeClosing := by
  cases pc with
  | load =>
    have hload : ¬(c.state ≠ .disconnected ∧ c.state ≠ .closed) := by
      rintro ⟨hd, hc⟩
      simp [State.terminal, hd, hc] at hs
    simp [disconnectStep, hload]
  | join =>
    unfold disconnectStep
    dsimp only
    split
    · intro hn
      cases hn
    · intro hn
      cases hn
  | _ =>
    intro hn
    cases hn

/-- Where the worker goes on to after its last store it has stored, and what it stores last
is `DISCONNECTED` or `CLOSED`. -/
theorem settled_threadFuncStep {c : Client} (h : c.Settled) (hin : c.inside = none)
    (env : ThreadFuncEnv) : (c.threadFuncStep env).Settled := by
  have hnone : c.inside ≠ some .storeClosing := by simp [hin]
  unfold threadFuncStep
  split
  case h_1 p hw =>
    split
    · intro hs
      cases p <;> cases hs
    · split <;> exact nofun
  case h_2 => exact fun _ => ⟨rfl, hnone⟩
  case h_3 p hw => exact fun hs => h (by rw [hw]; exact hs)
  case h_4 p hw =>
    intro hs
    refine h ?_
    rw [hw]
    cases p <;> first | rfl | cases hs
  case h_8 =>
    intro hs
    split at hs <;> cases hs
  case h_9 => split <;> exact nofun
  case h_10 hw =>
    split
    · exact nofun
    · exact nofun
    · exact nofun
    · exact h
  case h_15 => exact fun _ => ⟨rfl, hnone⟩
  case h_16 hw | h_17 hw => exact fun _ => h (by rw [hw]; rfl)
  case h_18 => exact h
  all_goals exact nofun

theorem settled_step {c : Client} (h : c.Settled) {a : ClientAct} (ha : ¬c.StoresLate a) :
    (c.step a).Settled := by
  cases a with
  | worker env =>
    simp only [step]
    unfold workerStep
    split
    next => exact fun hs => ⟨(h hs).1, fun hn => by cases hn⟩
    next pc _ hin =>
      rcases c.disconnectStep_cases true pc with ⟨hpc, hd⟩ | ⟨-, _, _, hd⟩
      · rw [hd]
        exact fun hs => absurd (hin.trans (congrArg some hpc)) (h hs).2
      · rw [hd]
        exact fun hs => ⟨(h hs).1, fun hn => disconnectStep_next (h hs).1 (Option.some.inj hn)⟩
    next hin =>
      split
      next => exact fun hs => ⟨(h hs).1, fun hn => by cases hn⟩
      next => exact settled_threadFuncStep h hin env
  | caller i =>
    simp only [step]
    rcases c.disconnectStep_cases false (c.callers i) with ⟨hpc, hd⟩ | ⟨-, _, _, hd⟩
    · rw [hd]
      exact fun hs => absurd ⟨hpc, hs⟩ ha
    · rw [hd]
      exact h

theorem stored_threadFuncStep {c : Client} (hs : c.worker.stored = true) (env : ThreadFuncEnv) :
    (c.threadFuncStep env).worker.stored = true ∧ (c.threadFuncStep env).state = c.state := by
  unfold threadFuncStep
  split
  case h_3 p hw =>
    rw [hw] at hs
    exact ⟨hs, rfl⟩
  case h_4 p hw =>
    rw [hw] at hs
    refine ⟨?_, rfl⟩
    cases p <;> first | rfl | cases hs
  case h_16 | h_17 => exact ⟨rfl, rfl⟩
  case h_18 => exact ⟨hs, rfl⟩
  all_goals
    next hw =>
      rw [hw] at hs
      cases hs

/-- `CLOSING` stays for good once it is stored after the worker's last store. -/
theorem closing_step {c : Client} (hs : c.worker.stored = true) (hc : c.state = .closing)
    (a : ClientAct) : (c.step a).worker.stored = true ∧ (c.step a).state = .closing := by
  cases a with
  | worker env =>
    simp only [step]
    unfold workerStep
    split
    next => exact ⟨hs, hc⟩
    next pc _ _ =>
      rcases c.disconnectStep_cases true pc with ⟨-, hd⟩ | ⟨-, _, _, hd⟩
      · rw [hd]
        exact ⟨hs, rfl⟩
      · rw [hd]
        exact ⟨hs, hc⟩
    next =>
      split
      next => exact ⟨hs, hc⟩
      next =>
        obtain ⟨hs', hst⟩ := stored_threadFuncStep hs env
        exact ⟨hs', hst.trans hc⟩
  | caller i =>
    simp only [step]
    rcases c.disconnectStep_cases false (c.callers i) with ⟨-, hd⟩ | ⟨-, _, _, hd⟩
    · rw [hd]
      exact ⟨hs, rfl⟩
    · rw [hd]
      exact ⟨hs, hc⟩

end Client

/-- In every run in which nobody stores `CLOSING` after the worker's last store, the state
is terminal whenever the run is; and after such a store it is `CLOSING` for ever. -/
theorem terminal_state (useTls : Bool) (acts : List ClientAct) :
    (Never ClientStep Client.StoresLate (.start useTls) acts →
      Always ClientStep Client.Terminal (.start useTls) acts) ∧
    (∀ c a more d, Run ClientStep (.start useTls) acts c → c.StoresLate a →
      Run ClientStep c (a :: more) d → d.state = .closing) := by
  constructor
  · intro h
    have hstart : (Client.start useTls).Settled := nofun
    have hsettled : Always ClientStep Client.Settled (.start useTls) acts := by
      refine always_of_kept ?_ hstart h
      rintro c a d hc ha rfl
      exact Client.settled_step hc ha
    refine hsettled.imp fun c hc hq => (hc ?_).1
    rw [hq.1]
    rfl
  · intro c a more d _ ha hrun
    cases a with
    | worker env => exact ha.elim
    | caller i =>
      obtain ⟨t, rfl, hmore⟩ := run_cons_iff.mp hrun
      have hnow : (c.step (.caller i)).worker.stored = true ∧
          (c.step (.caller i)).state = .closing := by
        simp [Client.step, Client.disconnectStep, ha.1, ha.2]
      refine (hmore.invariant (P := fun c => c.worker.stored = true ∧ c.state = .closing)
        ?_ hnow).2
      rintro c a d ⟨hs, hc⟩ rfl
      exact Client.closing_step hs hc a

/-- The host name is not found between the load of a `disconnect` and its store. -/
def lookupFailsMeanwhile : List ClientAct :=
  [.caller 0] ++ List.replicate 6 (.worker ⟨true, false, .again, .none, false⟩) ++
    List.replicate 4 (.caller 0)

theorem terminal_state_is_lost :
    ¬Always ClientStep Client.Terminal (.start false) lookupFailsMeanwhile := by
  intro h
  have hrun := run_foldl Client.step (.start false) lookupFailsMeanwhile
  have hend := h _ _ (List.prefix_refl _) hrun
  have hquiet : (lookupFailsMeanwhile.foldl Client.step (.start false)).Quiescent := by
    refine ⟨rfl, rfl, fun i => ?_⟩
    by_cases hi : i = 0
    · subst hi
      rfl
    · simp [lookupFailsMeanwhile, Client.step, Client.workerStep, Client.threadFuncStep,
        Client.disconnectStep, Client.start, Client.fire, ThreadFuncPc.inCallback,
        FailurePoint.failed, FailurePoint.afterStore, FailurePoint.afterError, hi, List.replicate,
        DisconnectPc.inProgress]
  exact absurd (hend hquiet) (by decide)

end ModAudioStream
