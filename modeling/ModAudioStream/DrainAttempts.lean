import ModAudioStream.QueueFifo
import Mathlib.Data.Nat.Choose.Basic

namespace ModAudioStream

section Attempts

variable {α σ : Type*} {isEmpty : α → Bool} {results : Nat → Bool}

/-- A `sendFrame` that answers from a given sequence of results, and keeps every attempt
with its result. -/
def attemptBy (results : Nat → Bool) (item : α) (attempts : List (α × Bool)) :
    Bool × List (α × Bool) :=
  (results attempts.length, attempts ++ [(item, results attempts.length)])

/-- The attempts that the loop may still make: each item not gone round yet, and then every
one of the others after a success for the last of them. -/
def attemptsLeft (queued retries : Nat) : Nat := (queued - retries) + queued * (queued - 1) / 2

/-- The last attempts were one for each item of the queue and failed, and the attempt before
them, if there was one, was a success. -/
def TriedSinceSuccess (queue : List α) (attempts : List (α × Bool)) : Prop :=
  ∃ earlier, attempts = earlier ++ queue.map (·, false) ∧ ∀ last ∈ earlier.getLast?, last.2 = true

/-- The items that were sent, in the order of the attempts that succeeded. -/
def sentItems (attempts : List (α × Bool)) : List α := (attempts.filter (·.2)).map (·.1)

theorem sentItems_snoc (attempts : List (α × Bool)) (item : α) (sent : Bool) :
    sentItems (attempts ++ [(item, sent)]) =
      sentItems attempts ++ if sent then [item] else [] := by
  cases sent <;> simp [sentItems]

theorem attemptsLeft_succ (queued retries : Nat) :
    attemptsLeft (queued + 1) retries =
      (queued + 1 - retries) + (queued * (queued - 1) / 2 + queued) := by
  rw [attemptsLeft, Nat.triangle_succ]

theorem attemptsLeft_zero (queued : Nat) :
    attemptsLeft queued 0 = queued * (queued + 1) / 2 := by
  have hsucc := Nat.triangle_succ queued
  rw [Nat.add_sub_cancel, Nat.mul_comm] at hsucc
  rw [attemptsLeft, Nat.sub_zero, hsucc, Nat.add_comm]

/-- While the loop goes on, not every item has been gone round. -/
theorem cons_front {item : α} {rest front back : List α} (h : item :: rest = front ++ back)
    (hlt : back.length < rest.length + 1) : ∃ front', front = item :: front' := by
  cases front with
  | nil =>
    have hlen := congrArg List.length h
    rw [List.length_cons, List.nil_append] at hlen
    omega
  | cons x front => exact ⟨front, by rw [(List.cons.inj h).1]⟩

theorem attemptBy_eq {item : α} {attempts attempts' : List (α × Bool)} {sent : Bool}
    (h : attemptBy results item attempts = (sent, attempts')) :
    attempts' = attempts ++ [(item, sent)] := by
  obtain ⟨rfl, rfl⟩ := Prod.mk.inj h
  rfl

/-- The measure drops by each attempt: a failure uses up one of the items to go round, a
success one of the items. -/
theorem drainLoop_attempts_le (queue : List α) (retries : Nat) (attempts : List (α × Bool)) :
    (drainLoop isEmpty (attemptBy results) queue retries attempts).2.length ≤
      attempts.length + attemptsLeft queue.length retries := by
  fun_induction drainLoop isEmpty (attemptBy results) queue retries attempts with
  | case1 => exact Nat.le_add_right _ _
  | case2 retries attempts item rest hr _ ih =>
    rw [List.length_cons, attemptsLeft_succ]
    unfold attemptsLeft at ih
    omega
  | case3 retries attempts item rest hr _ attempts' hs ih =>
    have hlen : attempts'.length = attempts.length + 1 := by rw [attemptBy_eq hs]; simp
    have hrest : (rest ++ [item]).length = rest.length + 1 := by simp
    rw [hlen, hrest, attemptsLeft_succ] at ih
    rw [List.length_cons, attemptsLeft_succ]
    omega
  | case4 retries attempts item rest hr _ attempts' hs ih =>
    have hlen : attempts'.length = attempts.length + 1 := by rw [attemptBy_eq hs]; simp
    rw [hlen] at ih
    rw [List.length_cons, attemptsLeft_succ]
    unfold attemptsLeft at ih
    omega
  | case5 => exact Nat.le_add_right _ _

theorem TriedSinceSuccess.failed {queue : List α} {attempts : List (α × Bool)}
    (h : TriedSinceSuccess queue attempts) (item : α) :
    TriedSinceSuccess (queue ++ [item]) (attempts ++ [(item, false)]) := by
  obtain ⟨earlier, rfl, hlast⟩ := h
  exact ⟨earlier, by simp, hlast⟩

theorem triedSinceSuccess_sent (attempts : List (α × Bool)) (item : α) :
    TriedSinceSuccess [] (attempts ++ [(item, true)]) :=
  ⟨attempts ++ [(item, true)], by simp, by simp⟩

/-- The items that the loop has gone round are the last `retries` of the queue, and each of
them has failed since the last success. -/
theorem drainLoop_tried {queue : List α} {retries : Nat} {attempts : List (α × Bool)}
    (h : ∃ front back, queue = front ++ back ∧ retries = back.length ∧
      TriedSinceSuccess back attempts) :
    TriedSinceSuccess (drainLoop isEmpty (attemptBy results) queue retries attempts).1
      (drainLoop isEmpty (attemptBy results) queue retries attempts).2 := by
  fun_induction drainLoop isEmpty (attemptBy results) queue retries attempts with
  | case1 retries attempts =>
    obtain ⟨front, back, hq, -, htried⟩ := h
    obtain ⟨-, rfl⟩ := List.append_eq_nil_iff.mp hq.symm
    exact htried
  | case2 retries attempts item rest hr _ ih =>
    obtain ⟨front, back, hq, hb, htried⟩ := h
    obtain ⟨front', rfl⟩ := cons_front hq (by omega)
    exact ih ⟨front', back, (List.cons.inj hq).2, hb, htried⟩
  | case3 retries attempts item rest hr _ attempts' hs ih =>
    obtain ⟨front, back, hq, hb, htried⟩ := h
    obtain ⟨front', rfl⟩ := cons_front hq (by omega)
    obtain rfl := (List.cons.inj hq).2
    rw [attemptBy_eq hs] at ih ⊢
    exact ih ⟨front', back ++ [item], by simp, by simp [hb], htried.failed item⟩
  | case4 retries attempts item rest hr _ attempts' hs ih =>
    rw [attemptBy_eq hs] at ih ⊢
    exact ih ⟨rest, [], by simp, rfl, triedSinceSuccess_sent attempts item⟩
  | case5 retries attempts item rest hr =>
    obtain ⟨front, back, hq, hb, htried⟩ := h
    have hlen := congrArg List.length hq
    rw [List.length_append, List.length_cons] at hlen
    have hfront : front = [] := List.length_eq_zero_iff.mp (by omega)
    rw [hq, hfront]
    exact htried

/-- What has been sent and what is left are the items that were not empty. -/
theorem drainLoop_accounts (queue : List α) (retries : Nat) (attempts : List (α × Bool)) :
    (sentItems (drainLoop isEmpty (attemptBy results) queue retries attempts).2 ++
        (drainLoop isEmpty (attemptBy results) queue retries attempts).1.filter
          fun item => !isEmpty item).Perm
      (sentItems attempts ++ queue.filter fun item => !isEmpty item) := by
  fun_induction drainLoop isEmpty (attemptBy results) queue retries attempts with
  | case1 => exact List.Perm.refl _
  | case2 retries attempts item rest _ he ih =>
    rw [List.filter_cons_of_neg (by simp [he])]
    exact ih
  | case3 retries attempts item rest _ he attempts' hs ih =>
    have hrotate : (rest ++ [item]).Perm (item :: rest) := List.perm_append_comm
    rw [attemptBy_eq hs, sentItems_snoc, if_neg Bool.false_ne_true, List.append_nil] at ih
    rw [attemptBy_eq hs]
    exact ih.trans ((hrotate.filter _).append_left _)
  | case4 retries attempts item rest _ he attempts' hs ih =>
    rw [attemptBy_eq hs, sentItems_snoc, if_pos rfl] at ih
    rw [attemptBy_eq hs, List.filter_cons_of_pos (by simpa using he)]
    exact ih.trans (List.Perm.of_eq (by simp))
  | case5 => exact List.Perm.refl _

theorem drainLoop_length_le {send : α → σ → Bool × σ} (queue : List α) (retries : Nat) (s : σ) :
    (drainLoop isEmpty send queue retries s).1.length ≤ queue.length := by
  fun_induction drainLoop isEmpty send queue retries s with
  | case1 => exact Nat.le_refl _
  | case2 _ _ _ _ _ _ ih => exact Nat.le_succ_of_le ih
  | case3 _ _ _ _ _ _ _ _ ih => simpa using ih
  | case4 _ _ _ _ _ _ _ _ ih => exact Nat.le_succ_of_le ih
  | case5 => exact Nat.le_refl _

end Attempts

namespace SendQueue

def Bounded (q : SendQueue) : Prop := q.queue.length ≤ maxSendQueue

theorem sendBinary_room {state : State} {data : List UInt8} {queued : Nat} {item : SendItem}
    (h : sendBinary state data queued = some item) : queued < maxSendQueue := by
  unfold sendBinary at h
  split at h
  · cases h
  · split at h
    · cases h
    · exact (unlessFull_eq_some.mp h).1

theorem sendMessage_room {text : List UInt8} {queued : Nat} {item : SendItem}
    (h : sendMessage text queued = some item) : queued < maxSendQueue := by
  unfold sendMessage at h
  split at h
  · cases h
  · exact (unlessFull_eq_some.mp h).1

theorem bounded_accept {q : SendQueue} (h : q.Bounded) {item? : Option SendItem}
    (hroom : ∀ item, item? = some item → q.queue.length < maxSendQueue) :
    (q.accept item?).Bounded := by
  cases item? with
  | none => exact h
  | some item =>
    have hlt := hroom item rfl
    show (q.queue ++ [(item, q.accepted.length)]).length ≤ maxSendQueue
    rw [List.length_append, List.length_singleton]
    omega

theorem bounded_step {q : SendQueue} (h : q.Bounded) (a : QueueAct) : (q.step a).Bounded := by
  cases a with
  | sendBinary state data => exact bounded_accept h fun _ => sendBinary_room
  | sendMessage text => exact bounded_accept h fun _ => sendMessage_room
  | drainSendQueue results => exact (drainLoop_length_le _ _ _).trans h

end SendQueue

/-- Each item of the queue that is not empty is attempted. -/
def AllAttempted (queue : List SendItem) (attempts : List (SendItem × Bool)) : Prop :=
  ∀ item ∈ queue, item.data ≠ [] → ∃ sent, (item, sent) ∈ attempts

/-- An item is attempted when it is sent, or left with an attempt that failed. -/
theorem allAttempted_of_perm {queue left : List SendItem} {attempts : List (SendItem × Bool)}
    (htried : TriedSinceSuccess left attempts)
    (hperm : (sentItems attempts ++ left).Perm (queue.filter fun item => !item.data.isEmpty)) :
    AllAttempted queue attempts := by
  intro item hitem hne
  have hmem : item ∈ sentItems attempts ++ left := by
    rw [hperm.mem_iff]
    exact List.mem_filter.mpr ⟨hitem, by simpa using hne⟩
  rcases List.mem_append.mp hmem with hsent | hleft
  · obtain ⟨attempt, hattempt, rfl⟩ := List.mem_map.mp hsent
    exact ⟨attempt.2, (List.mem_filter.mp hattempt).1⟩
  · obtain ⟨earlier, rfl, -⟩ := htried
    refine ⟨false, List.mem_append_right _ ?_⟩
    exact List.mem_map.mpr ⟨item, hleft, rfl⟩

/-- A drain makes at most `n (n + 1) / 2` attempts, attempts every item that is not empty, sends
or keeps each of them exactly once, and leaves only items that it has tried in vain since the last
success; and no run overfills the queue or puts an empty item into it. -/
theorem drainSendQueue_tries_everything (results : Nat → Bool) (queue : List SendItem)
    (acts : List QueueAct) :
    (drainSendQueue (attemptBy results) queue []).2.length ≤
      queue.length * (queue.length + 1) / 2 ∧
    AllAttempted queue (drainSendQueue (attemptBy results) queue []).2 ∧
    (sentItems (drainSendQueue (attemptBy results) queue []).2 ++
      (drainSendQueue (attemptBy results) queue []).1).Perm
        (queue.filter fun item => !item.data.isEmpty) ∧
    TriedSinceSuccess (drainSendQueue (attemptBy results) queue []).1
      (drainSendQueue (attemptBy results) queue []).2 ∧
    Always QueueStep (fun q => q.queue.length ≤ maxSendQueue ∧ ∀ p ∈ q.queue, p.1.data ≠ [])
      .empty acts := by
  have htried : TriedSinceSuccess (drainSendQueue (attemptBy results) queue []).1
      (drainSendQueue (attemptBy results) queue []).2 :=
    drainLoop_tried ⟨queue, [], by simp, rfl, [], rfl, by simp⟩
  have hperm : (sentItems (drainSendQueue (attemptBy results) queue []).2 ++
      (drainSendQueue (attemptBy results) queue []).1).Perm
        (queue.filter fun item => !item.data.isEmpty) := by
    have haccounts := @drainLoop_accounts _ (fun item : SendItem => item.data.isEmpty) results
      queue 0 []
    have hleft : ∀ item ∈ (drainSendQueue (attemptBy results) queue []).1,
        item.data.isEmpty = false :=
      drainLoop_leaves_nonempty ⟨queue, [], by simp, rfl, by simp⟩
    rw [List.filter_eq_self.mpr fun item hitem => by
      rw [Bool.not_eq_true']
      exact hleft item hitem] at haccounts
    exact haccounts
  refine ⟨?_, allAttempted_of_perm htried hperm, hperm, htried, ?_⟩
  · have hle := @drainLoop_attempts_le _ (fun item : SendItem => item.data.isEmpty) results
      queue 0 []
    rw [attemptsLeft_zero, List.length_nil, Nat.zero_add] at hle
    exact hle
  · have keep : ∀ q a q', SendQueue.Inv q ∧ q.Bounded → QueueStep q a q' →
        SendQueue.Inv q' ∧ q'.Bounded := by
      rintro q a q' ⟨hinv, hbounded⟩ rfl
      exact ⟨SendQueue.inv_step hinv a, SendQueue.bounded_step hbounded a⟩
    refine (always_of_invariant keep ⟨SendQueue.inv_empty, Nat.zero_le _⟩ acts).imp ?_
    rintro q ⟨hinv, hbounded⟩
    refine ⟨hbounded, fun p hp hnil => ?_⟩
    have hne := hinv.nonempty p hp
    rw [hnil] at hne
    cases hne

end ModAudioStream
