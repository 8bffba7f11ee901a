import ModAudioStream.ClientStates

namespace ModAudioStream

/-- Where the thread is that calls `connect` and `disconnect`; its next step is the one named. -/
inductive LifecyclePc where
  | idle
  | compareExchange
  | storeRunning
  | assignThread
  | storeStarted
  | disconnect (pc : DisconnectPc)
deriving DecidableEq, Repr

/-- A client whose worker has finished, or not been started, as long as `thread_` is not
`joinable`. `terminated` is set by an assignment to a thread that is. `found`, `started` and
`unjoined` only record the run: whether the last `connect` has found `DISCONNECTED`, whether it
has started a worker, and whether a worker has been started since `disconnect` was last called. -/
structure Reconnecting where
  client : Client
  joinable : Bool
  pc : LifecyclePc
  terminated : Bool
  found : Bool
  started : Bool
  unjoined : Bool

/-- A call of `connect` or of `disconnect`, a step of the call, and a step of the worker. -/
inductive ReconnectAct where
  | connect
  | disconnect
  | caller
  | worker (env : ThreadFuncEnv)

namespace Reconnecting

def start (useTls : Bool) : Reconnecting where
  client := { Client.start useTls with
    state := .disconnected, running := false, threadStarted := false, worker := .finished }
  joinable := false
  pc := .idle
  terminated := false
  found := false
  started := false
  unjoined := false

/-- `thread_ = std::thread(&WebSocketClient::threadFunc, this)`. -/
def assignThread (s : Reconnecting) : Reconnecting :=
  if s.joinable then { s with terminated := true }
  else
    { s with
      client := { s.client with worker := .stage .dnsLookup, passed := false }
      joinable := true, pc := .storeStarted, started := true, unjoined := true }

/-- The end of `disconnect`, which waits for the worker. -/
def join (s : Reconnecting) : Reconnecting :=
  if s.client.threadStarted ∧ s.joinable then
    if s.client.worker = .finished then
      { s with
        client := { s.client with threadStarted := false }
        joinable := false, pc := .disconnect .returned }
    else s
  else { s with pc := .disconnect .returned }

def callerStep (s : Reconnecting) : Reconnecting :=
  match s.pc with
  | .idle => s
  | .compareExchange =>
    if s.client.state = .disconnected then
      { s with
        client := { s.client with state := .connecting }, pc := .storeRunning, found := true }
    else { s with pc := .idle }
  | .storeRunning => { s with client := { s.client with running := true }, pc := .assignThread }
  | .assignThread => s.assignThread
  | .storeStarted => { s with client := { s.client with threadStarted := true }, pc := .idle }
  | .disconnect .join => s.join
  | .disconnect .returned => { s with pc := .idle }
  | .disconnect pc =>
    { s with
      client := (s.client.disconnectStep false pc).1
      pc := .disconnect (s.client.disconnectStep false pc).2 }

def step (s : Reconnecting) (a : ReconnectAct) : Reconnecting :=
  if s.terminated then s
  else
    match a with
    | .connect =>
      if s.pc = .idle then { s with pc := .compareExchange, found := false, started := false }
      else s
    | .disconnect =>
      if s.pc = .idle then { s with pc := .disconnect .load, unjoined := false } else s
    | .caller => s.callerStep
    | .worker env => { s with client := s.client.threadFuncStep env }

/-- No thread has been assigned over, and a `connect` that has found `DISCONNECTED` and has
returned has started a worker. -/
def Safe (s : Reconnecting) : Prop :=
  s.terminated = false ∧ (s.pc = .idle → s.found = true → s.started = true)

/-- A `connect` that has found `DISCONNECTED` goes on to start a worker, where one has been
started and `disconnect` has not been called since. -/
def Reassigns (s : Reconnecting) : ReconnectAct → Prop
  | .caller => s.pc = .assignThread ∧ s.unjoined = true
  | _ => False

/-- How `thread_`, `threadStarted_`, the worker and the calls that have been made go together. -/
structure Consistent (s : Reconnecting) : Prop where
  flag : s.pc ≠ .storeStarted → s.client.threadStarted = s.joinable
  assigned : s.pc = .storeStarted → s.joinable = true ∧ s.started = true
  calls : (∀ pc, s.pc ≠ .disconnect pc) → s.joinable = s.unjoined
  leaving : ∀ pc, s.pc = .disconnect pc → s.unjoined = false
  left : s.pc = .disconnect .returned → s.joinable = false
  worker : s.joinable = false → s.client.worker = .finished
  found : s.found = true →
    s.started = true ∨ s.pc = .storeRunning ∨ s.pc = .assignThread

theorem threadStarted_threadFuncStep (c : Client) (env : ThreadFuncEnv) :
    (c.threadFuncStep env).threadStarted = c.threadStarted := by
  unfold Client.threadFuncStep
  split
  case h_1 p hw =>
    split
    · rfl
    · split <;> rfl
  case h_9 => split <;> rfl
  case h_10 => split <;> rfl
  all_goals rfl

theorem threadFuncStep_finished {c : Client} (h : c.worker = .finished) (env : ThreadFuncEnv) :
    (c.threadFuncStep env).worker = .finished := by
  simp only [Client.threadFuncStep, h]

/-- Before it joins, `disconnect` touches neither the worker nor `threadStarted_`. -/
theorem disconnectStep_before {c : Client} {pc : DisconnectPc} (hjoin : pc ≠ .join) :
    (c.disconnectStep false pc).1.threadStarted = c.threadStarted ∧
      (c.disconnectStep false pc).1.worker = c.worker := by
  cases pc with
  | join => exact absurd rfl hjoin
  | _ => exact ⟨rfl, rfl⟩

theorem disconnectStep_not_returned {c : Client} {pc : DisconnectPc} (hjoin : pc ≠ .join)
    (hret : pc ≠ .returned) : (c.disconnectStep false pc).2 ≠ .returned := by
  cases pc with
  | load =>
    unfold Client.disconnectStep
    dsimp only
    split
    · exact nofun
    · exact nofun
  | join => exact absurd rfl hjoin
  | returned => exact absurd rfl hret
  | _ => exact nofun

variable {s : Reconnecting}

theorem Consistent.start (useTls : Bool) : (Reconnecting.start useTls).Consistent where
  flag _ := rfl
  assigned := nofun
  calls _ := rfl
  leaving := nofun
  left := nofun
  worker _ := rfl
  found := nofun

theorem Consistent.started_of_found (h : s.Consistent) (hfound : s.found = true)
    (hrunning : s.pc ≠ .storeRunning) (hassign : s.pc ≠ .assignThread) : s.started = true := by
  rcases h.found hfound with hstarted | hpc | hpc
  · exact hstarted
  · exact absurd hpc hrunning
  · exact absurd hpc hassign

theorem Consistent.connect (h : s.Consistent) (hpc : s.pc = .idle) :
    { s with pc := .compareExchange, found := false, started := false }.Consistent where
  flag _ := h.flag (by simp [hpc])
  assigned := nofun
  calls _ := h.calls (by simp [hpc])
  leaving := nofun
  left := nofun
  worker := h.worker
  found := nofun

theorem Consistent.disconnect (h : s.Consistent) (hpc : s.pc = .idle) :
    { s with pc := .disconnect .load, unjoined := false }.Consistent where
  flag _ := h.flag (by simp [hpc])
  assigned := nofun
  calls hnot := absurd rfl (hnot .load)
  leaving _ _ := rfl
  left := nofun
  worker := h.worker
  found hfound := Or.inl (h.started_of_found hfound (by simp [hpc]) (by simp [hpc]))

theorem Consistent.threadFuncStep (h : s.Consistent) (env : ThreadFuncEnv) :
    { s with client := s.client.threadFuncStep env }.Consistent where
  flag hpc := (threadStarted_threadFuncStep s.client env).trans (h.flag hpc)
  assigned := h.assigned
  calls := h.calls
  leaving := h.leaving
  left := h.left
  worker hjoin := threadFuncStep_finished (h.worker hjoin) env
  found := h.found

/-- The one assignment that is allowed is to a thread whose worker is gone. -/
theorem Consistent.assignThread (h : s.Consistent) :
    s.assignThread.Consistent := by
  unfold Reconnecting.assignThread
  split
  next =>
    exact {
      flag := h.flag
      assigned := h.assigned
      calls := h.calls
      leaving := h.leaving
      left := h.left
      worker := h.worker
      found := h.found }
  next hjoin =>
    exact {
      flag := fun hnot => absurd rfl hnot
      assigned := fun _ => ⟨rfl, rfl⟩
      calls := fun _ => rfl
      leaving := nofun
      left := nofun
      worker := nofun
      found := fun _ => Or.inl rfl }

/-- `disconnect` leaves a thread that is not `joinable`, whether it has waited or not. -/
theorem Consistent.join (h : s.Consistent) (hpc : s.pc = .disconnect .join) :
    s.join.Consistent := by
  have hflag : s.client.threadStarted = s.joinable := h.flag (by simp [hpc])
  have hstarted (hf : s.found = true) : s.started = true :=
    h.started_of_found hf (by simp [hpc]) (by simp [hpc])
  have hunjoined : s.unjoined = false := h.leaving _ hpc
  unfold Reconnecting.join
  split
  next =>
    split
    next hworker =>
      exact {
        flag := fun _ => rfl
        assigned := nofun
        calls := fun hnot => absurd rfl (hnot _)
        leaving := fun _ _ => hunjoined
        left := fun _ => rfl
        worker := fun _ => hworker
        found := fun hf => Or.inl (hstarted hf) }
    next => exact h
  next hnot =>
    have hjoin : s.joinable = false := by
      rw [← Bool.not_eq_true]
      intro htrue
      exact hnot ⟨hflag.trans htrue, htrue⟩
    exact {
      flag := fun _ => hflag
      assigned := nofun
      calls := fun hnot => absurd rfl (hnot _)
      leaving := fun _ _ => hunjoined
      left := fun _ => hjoin
      worker := h.worker
      found := fun hf => Or.inl (hstarted hf) }

theorem Consistent.compareExchange (h : s.Consistent) (hpc : s.pc = .compareExchange) :
    (if s.client.state = .disconnected then
      { s with
        client := { s.client with state := .connecting }, pc := .storeRunning, found := true }
    else { s with pc := .idle } : Reconnecting).Consistent := by
  have hflag : s.client.threadStarted = s.joinable := h.flag (by simp [hpc])
  have hcalls : s.joinable = s.unjoined := h.calls (by simp [hpc])
  split
  next =>
    exact {
      flag := fun _ => hflag
      assigned := nofun
      calls := fun _ => hcalls
      leaving := nofun
      left := nofun
      worker := h.worker
      found := fun _ => Or.inr (Or.inl rfl) }
  next =>
    exact {
      flag := fun _ => hflag
      assigned := nofun
      calls := fun _ => hcalls
      leaving := nofun
      left := nofun
      worker := h.worker
      found := fun hf => Or.inl (h.started_of_found hf (by simp [hpc]) (by simp [hpc])) }

theorem Consistent.callerStep (h : s.Consistent) : s.callerStep.Consistent := by
  unfold Reconnecting.callerStep
  split
  next => exact h
  next hpc => exact h.compareExchange hpc
  next hpc =>
    exact {
      flag := fun _ => h.flag (by simp [hpc])
      assigned := nofun
      calls := fun _ => h.calls (by simp [hpc])
      leaving := nofun
      left := nofun
      worker := h.worker
      found := fun _ => Or.inr (Or.inr rfl) }
  next => exact h.assignThread
  next hpc =>
    obtain ⟨hjoin, hstarted⟩ := h.assigned hpc
    exact {
      flag := fun _ => hjoin.symm
      assigned := nofun
      calls := fun _ => h.calls (by simp [hpc])
      leaving := nofun
      left := nofun
      worker := h.worker
      found := fun _ => Or.inl hstarted }
  next hpc => exact h.join hpc
  next hpc =>
    have hjoin : s.joinable = false := h.left hpc
    have hunjoined : s.unjoined = false := h.leaving _ hpc
    exact {
      flag := fun _ => h.flag (by simp [hpc])
      assigned := nofun
      calls := fun _ => hjoin.trans hunjoined.symm
      leaving := nofun
      left := nofun
      worker := h.worker
      found := fun hf => Or.inl (h.started_of_found hf (by simp [hpc]) (by simp [hpc])) }
  next pc hjoin hret hpc =>
    -- every step of `disconnect` before the join
    obtain ⟨hflag, hworker⟩ := @disconnectStep_before s.client pc hjoin
    have hnext := @disconnectStep_not_returned s.client pc hjoin hret
    exact {
      flag := fun _ => hflag.trans (h.flag (by simp [hpc]))
      assigned := nofun
      calls := fun hnot => absurd rfl (hnot _)
      leaving := fun _ _ => h.leaving _ hpc
      left := fun hleft => absurd (LifecyclePc.disconnect.inj hleft) hnext
      worker := fun hjoinable => hworker.trans (h.worker hjoinable)
      found := fun hf => Or.inl (h.started_of_found hf (by simp [hpc]) (by simp [hpc])) }

theorem consistent_step (s : Reconnecting) (a : ReconnectAct) (t : Reconnecting)
    (h : s.Consistent) (hstep : s.step a = t) : t.Consistent := by
  subst hstep
  unfold step
  split
  next => exact h
  next =>
    cases a with
    | connect =>
      dsimp only
      split
      next hpc => exact h.connect hpc
      next => exact h
    | disconnect =>
      dsimp only
      split
      next hpc => exact h.disconnect hpc
      next => exact h
    | caller => exact h.callerStep
    | worker env => exact h.threadFuncStep env

theorem terminated_callerStep (h : s.Consistent) (ha : ¬s.Reassigns .caller) :
    s.callerStep.terminated = s.terminated := by
  unfold callerStep
  split
  next => rfl
  next => split <;> rfl
  next => rfl
  next hpc =>
    have hjoin : s.joinable = s.unjoined := h.calls (by simp [hpc])
    have hnot : ¬s.joinable = true := by
      intro htrue
      exact ha ⟨hpc, hjoin.symm.trans htrue⟩
    rw [assignThread, if_neg hnot]
  next => rfl
  next =>
    unfold join
    split
    next => split <;> rfl
    next => rfl
  next => rfl
  next => rfl

theorem terminated_step (h : s.Consistent) {a : ReconnectAct} (hs : s.terminated = false)
    (ha : ¬s.Reassigns a) : (s.step a).terminated = false := by
  have hgo : ¬s.terminated = true := by simp [hs]
  unfold step
  rw [if_neg hgo]
  cases a with
  | connect =>
    dsimp only
    split
    · exact hs
    · exact hs
  | disconnect =>
    dsimp only
    split
    · exact hs
    · exact hs
  | caller => exact (terminated_callerStep h ha).trans hs
  | worker env => exact hs

theorem terminated_reassigns (h : s.Consistent) {a : ReconnectAct} (hs : s.terminated = false)
    (ha : s.Reassigns a) : (s.step a).terminated = true := by
  cases a with
  | caller =>
    obtain ⟨hpc, hunjoined⟩ := ha
    have hjoin : s.joinable = true := (h.calls (by simp [hpc])).trans hunjoined
    have hgo : ¬s.terminated = true := by simp [hs]
    unfold step
    rw [if_neg hgo]
    simp only [callerStep, hpc, assignThread, hjoin, if_true]
  | connect | disconnect | worker => exact ha.elim

/-- No thread is assigned over, and `connect` starts a worker wherever it finds `DISCONNECTED`, as
long as it does not find it after a worker that nobody has called `disconnect` for. -/
theorem reconnect_safe_iff (useTls : Bool) (acts : List ReconnectAct) :
    Always (fun s a t => step s a = t) Safe (start useTls) acts ↔
      Never (fun s a t => step s a = t) Reassigns (start useTls) acts := by
  refine always_iff_never consistent_step ?_ ?_ (Consistent.start useTls) ⟨rfl, nofun⟩
  · intro s a t h hsafe ha hstep
    have ht := consistent_step s a t h hstep
    refine ⟨?_, ?_⟩
    · rw [← hstep]
      exact terminated_step h hsafe.1 ha
    · intro hpc hfound
      exact ht.started_of_found hfound (by simp [hpc]) (by simp [hpc])
  · intro s a h hsafe ha
    refine ⟨_, rfl, ?_⟩
    intro hsafe'
    have hterm := terminated_reassigns h hsafe.1 ha
    rw [hsafe'.1] at hterm
    cases hterm

/-- A `connect` whose DNS lookup fails, and a second one. -/
theorem second_connect_terminates : ¬∀ (useTls : Bool) (acts : List ReconnectAct),
    Always (fun s a t => step s a = t) Safe (start useTls) acts := by
  intro hall
  let failing : ThreadFuncEnv := ⟨true, false, .again, .none, false⟩
  have h := hall false ([.connect, .caller, .caller, .caller, .caller, .worker failing,
    .worker failing, .connect, .caller, .caller, .caller]) _ _ (List.prefix_refl _)
    (run_foldl _ _ _)
  cases h.1

end Reconnecting

end ModAudioStream
