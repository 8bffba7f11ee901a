import ModAudioStream.FinalText

namespace ModAudioStream

/-- The states of a connection over an endless schedule. -/
def Session.statesOf (text : Option (List UInt8)) (acts : Nat → SessionAct) : Nat → Session :=
  statesFrom Session.step (.opened text) acts

/-- A schedule that does not forget the worker, of a connection that nobody ends: the main loop
is not left, and of a socket that is asked again and again whether it takes data, `poll` says
again and again that it does. -/
structure LivingSchedule (text : Option (List UInt8)) (acts : Nat → SessionAct) : Prop where
  worker : ∀ k, ∃ j, k ≤ j ∧ ∃ env, acts j = .worker env
  lives : ∀ k, (Session.statesOf text acts k).worker ≠ .sendClose
  writable : (∀ k, ∃ j, k ≤ j ∧ (∃ env, acts j = .worker env) ∧
      (Session.statesOf text acts j).worker = .poll true) →
    ∀ k, ∃ j, k ≤ j ∧ (Session.statesOf text acts j).worker = .poll true ∧
      ∃ env pollin, acts j = .worker env ∧ env.poll = .ready pollin true

namespace Session

theorem step_of_not_worker {s : Session} {a : SessionAct} (h : ¬∃ env, a = .worker env) :
    (s.step a).worker = s.worker := by
  cases a with
  | push item =>
    show (s.accept _).worker = s.worker
    cases s.pushed (.push item) <;> rfl
  | stop =>
    show s.stopStep.worker = s.worker
    unfold stopStep
    split
    next => split <;> [rfl; split <;> rfl]
    next text _ => cases hsent : sendMessage text s.queue.length <;> simp [accept]
    next => rfl
    next => split <;> rfl
    next => rfl
    next => rfl
    next => rfl
    next => split <;> rfl
    next => rfl
  | worker env => exact absurd ⟨env, rfl⟩ h

/-- What has been sent and what waits, in order. -/
def items (s : Session) : List SendItem := itemsOf s.sent ++ s.queue

/-- No item that waits is empty. -/
def Waits (s : Session) : Prop := ∀ item ∈ s.queue, item.data.isEmpty = false

theorem Waits.accept {s : Session} (h : s.Waits) {item? : Option SendItem}
    (hi : ∀ item ∈ item?, item.data.isEmpty = false) : (s.accept item?).Waits := by
  cases item? with
  | none => exact h
  | some item =>
    intro x hx
    rcases List.mem_append.mp hx with hx | hx
    · exact h x hx
    · exact List.mem_singleton.mp hx ▸ hi item rfl

end Session

namespace LivingSchedule

variable {text : Option (List UInt8)} {acts : Nat → SessionAct}

open Session

/-- The worker's next step comes, from where the worker is. -/
theorem turn (h : LivingSchedule text acts) (k : Nat) : ∃ j env, k ≤ j ∧
    (statesOf text acts j).worker = (statesOf text acts k).worker ∧ acts j = .worker env ∧
      statesOf text acts (j + 1) = (statesOf text acts j).workerStep env := by
  obtain ⟨j, hkj, ⟨env, hact⟩, hw⟩ := @lasts_until Session
    (fun s => s.worker = (statesOf text acts k).worker) (statesOf text acts)
    (fun j => ∃ env, acts j = .worker env) h.worker
    (fun j hnot hj => (step_of_not_worker hnot).trans hj) k rfl
  refine ⟨j, env, hkj, hw, hact, ?_⟩
  show step (statesOf text acts j) (acts j) = _
  rw [hact]
  rfl

end LivingSchedule

end ModAudioStream
