import ModAudioStream.ThreadJoin

namespace ModAudioStream

/-- How far a call of `disconnect` is from its end. -/
def DisconnectPc.rank : DisconnectPc → Nat
  | .load => 9
  | .storeClosing => 8
  | .storeRunning => 7
  | .notify => 6
  | .join => 5
  | .returned => 1

def JoinPc.rank : JoinPc → Nat
  | .test => 5
  | .handle => 4
  | .wait => 3
  | .clear => 2

namespace ThreadClient

/-- How far the call of a thread is from its end. -/
def callRank (t : ThreadClient) (who : Option Nat) : Nat :=
  match t.client.call who with
  | none => 0
  | some .join => (t.calls who).rank
  | some pc => pc.rank

/-- How far the worker is from its end; a `disconnect` of its own counts as well. -/
def rank (t : ThreadClient) : Nat := 10 * t.client.worker.rank + t.callRank none

theorem step_client_of_ne {t : ThreadClient} (h : t.Orderly) {a : ClientAct}
    (hcall : t.client.call a.thread ≠ some .join) :
    t.step a = { t with client := t.client.step a } := by
  rw [step, if_neg (by simp [h.intact]), if_neg hcall]

/-- Where a worker that is to stop stands still. -/
def Rests (t u : ThreadClient) : Prop :=
  t.client.inside = none ∧ u.client.inside = none ∧
    (t.client.worker = .finished ∧ u.client.worker = .finished ∨
      t.client.worker.inFrames = true ∧ u.client.worker.inFrames = true)

end ThreadClient

/-- An endless schedule in which neither the worker nor caller `i` is forgotten, callbacks call
`disconnect` no more than finitely often, every `processFrame` comes to an end, and no call comes
to `thread_` while another one is at it. -/
structure FairSchedule (useTls : Bool) (acts : Nat → ClientAct) (i : Nat) : Prop where
  worker : ∀ k, ∃ j, k ≤ j ∧ ∃ env, acts j = .worker env
  caller : ∀ k, ∃ j, k ≤ j ∧ acts j = .caller i
  quiet : ∃ n, ∀ j env, n ≤ j → acts j = .worker env → env.disconnects = false
  frames : ∀ k, ∃ j, k ≤ j ∧
    (statesFrom ThreadClient.step (.start useTls) acts j).client.worker.inFrames = false
  alone : ∀ k, ¬(statesFrom ThreadClient.step (.start useTls) acts k).Overlaps (acts k)

namespace FairSchedule

open ThreadClient

variable {useTls : Bool} {acts : Nat → ClientAct} {i : Nat}

theorem orderly (h : FairSchedule useTls acts i) (k : Nat) :
    (statesFrom ThreadClient.step (.start useTls) acts k).Orderly :=
  kept_from (P := Orderly) (fun k hk => hk.step (h.alone k)) (Nat.zero_le k) (orderly_start useTls)

end FairSchedule

/-- A schedule in which the host name is not found, and the worker and the caller take turns.
The error callback may disconnect as well; the caller then comes later. -/
def lookupFails (hangsUp : Bool) (k : Nat) : ClientAct :=
  if k % 2 = 0 ∨ hangsUp ∧ k < 14 then .worker ⟨true, false, .again, .none, hangsUp && k == 3⟩
  else .caller 0

namespace ThreadClient

end ThreadClient

/-- Nobody but the first caller is in a call of `disconnect` or comes to one. -/
structure OneCaller (t : ThreadClient) : Prop where
  orderly : t.Orderly
  inside : t.client.inside = none
  calls : ∀ who, who ≠ some 0 → t.calls who = .test

theorem OneCaller.alone {t : ThreadClient} (h : OneCaller t) (k : Nat) :
    ¬t.Overlaps (lookupFails false k) := by
  rintro ⟨hcall, htest, -, -, who, hat⟩
  have hthread : (lookupFails false k).thread = some 0 := by
    unfold lookupFails at hcall ⊢
    split at hcall
    · exact absurd (h.inside.symm.trans hcall) (Option.some_ne_none _).symm
    next hodd => rw [if_neg hodd, ClientAct.thread]
  rw [hthread] at htest
  have hwho : t.calls who = .test := by
    by_cases hfirst : who = some 0
    · rw [hfirst]
      exact htest
    · exact h.calls who hfirst
  rcases hat with hat | hat
  · exact absurd (hwho.symm.trans hat) (by decide)
  · exact absurd (hwho.symm.trans hat) (by decide)

theorem OneCaller.step {t : ThreadClient} (h : OneCaller t) (k : Nat) :
    OneCaller (t.step (lookupFails false k)) := by
  have horderly := h.orderly.step (h.alone k)
  by_cases hk : k % 2 = 0
  · have hact : lookupFails false k = .worker ⟨true, false, .again, .none, false⟩ :=
      if_pos (Or.inl hk)
    have hne : t.client.call none ≠ some .join := by
      rw [Client.call, h.inside]
      exact (Option.some_ne_none _).symm
    rw [hact] at horderly ⊢
    refine ⟨horderly, ?_, ?_⟩
    · rw [@ThreadClient.step_client_of_ne t h.orderly (.worker _) hne]
      simp only [Client.step, Client.workerStep, h.inside]
      rw [if_neg (by simp)]
      exact (t.client.inside_threadFuncStep _).1.trans h.inside
    · rw [@ThreadClient.step_client_of_ne t h.orderly (.worker _) hne]
      exact h.calls
  · have hact : lookupFails false k = .caller 0 := if_neg (by simp [hk])
    rw [hact] at horderly ⊢
    refine ⟨horderly, ?_, fun who hwho => ?_⟩
    · have hother : none ≠ ClientAct.thread (.caller 0) := (Option.some_ne_none 0).symm
      exact (t.call_step_of_ne hother).trans h.inside
    · exact (@ThreadClient.calls_step_of_ne t (.caller 0) who hwho).trans (h.calls who hwho)

end ModAudioStream
