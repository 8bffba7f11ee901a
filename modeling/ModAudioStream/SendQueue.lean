import ModAudioStream.WsClient
import ModAudioStream.Runs

namespace ModAudioStream

/-- The size test that `sendBinary` and `sendMessage` make under the lock. -/
def unlessFull (queued : Nat) (item : SendItem) : Option SendItem :=
  if maxSendQueue ≤ queued then none else some item

/-- The item that `sendBinary` pushes onto a queue of `queued` items, if any. -/
def sendBinary (state : State) (data : List UInt8) (queued : Nat) : Option SendItem :=
  if data.isEmpty then none
  else if state ≠ .opened then none
  else unlessFull queued ⟨data, true⟩

def sendMessage (text : List UInt8) (queued : Nat) : Option SendItem :=
  if text.isEmpty then none else unlessFull queued ⟨text, false⟩

theorem unlessFull_eq_some {queued : Nat} {item item' : SendItem} :
    unlessFull queued item = some item' ↔ queued < maxSendQueue ∧ item = item' := by
  unfold unlessFull
  split
  next hfull => exact iff_of_false nofun fun hroom => Nat.not_le_of_lt hroom.1 hfull
  next hroom =>
    rw [Option.some.injEq]
    exact (and_iff_right (Nat.lt_of_not_le hroom)).symm

theorem sendBinary_nonempty {state : State} {data : List UInt8} {queued : Nat} {item : SendItem}
    (h : item ∈ sendBinary state data queued) : item.data.isEmpty = false := by
  unfold sendBinary at h
  split at h
  · simp at h
  next hd =>
    split at h
    · simp at h
    · obtain ⟨_, rfl⟩ := unlessFull_eq_some.mp h
      simpa using hd

theorem sendMessage_nonempty {text : List UInt8} {queued : Nat} {item : SendItem}
    (h : item ∈ sendMessage text queued) : item.data.isEmpty = false := by
  unfold sendMessage at h
  split at h
  · simp at h
  next hd =>
    obtain ⟨_, rfl⟩ := unlessFull_eq_some.mp h
    simpa using hd

section Drain

variable {α σ : Type*}

/-- The loop of `drainSendQueue`, for any kind of queue item: `isEmpty` is the
test of `item.data`, `send` the call of `sendFrame` with the state it changes.
Returns what is left in the queue. -/
def drainLoop (isEmpty : α → Bool) (send : α → σ → Bool × σ) (queue : List α) (retries : Nat)
    (s : σ) : List α × σ :=
  match queue with
  | [] => ([], s)
  | item :: rest =>
    if retries < rest.length + 1 then
      if isEmpty item then drainLoop isEmpty send rest retries s
      else
        match send item s with
        | (false, s') => drainLoop isEmpty send (rest ++ [item]) (retries + 1) s'
        | (true, s') => drainLoop isEmpty send rest 0 s'
    else (item :: rest, s)
termination_by (queue.length, queue.length - retries)
decreasing_by
  all_goals simp only [Prod.lex_def, List.length_append, List.length_cons, List.length_nil,
    true_and]
  all_goals omega

def drainSendQueue (send : SendItem → σ → Bool × σ) (queue : List SendItem) (s : σ) :
    List SendItem × σ :=
  drainLoop (fun item => item.data.isEmpty) send queue 0 s

/-- A `sendFrame` that answers from a given sequence of results, and keeps the
number of calls and the items it reported sent. -/
def sendBy (results : Nat → Bool) (item : α) (s : Nat × List α) : Bool × (Nat × List α) :=
  (results s.1, (s.1 + 1, if results s.1 then s.2 ++ [item] else s.2))

variable {isEmpty : α → Bool} {send : α → σ → Bool × σ}

theorem drainLoop_nil (retries : Nat) (s : σ) :
    drainLoop isEmpty send [] retries s = ([], s) := by
  rw [drainLoop]

theorem drainLoop_exhausted {queue : List α} {retries : Nat} (s : σ)
    (h : queue.length ≤ retries) : drainLoop isEmpty send queue retries s = (queue, s) := by
  cases queue with
  | nil => exact drainLoop_nil retries s
  | cons item rest =>
    rw [drainLoop, if_neg]
    simp only [List.length_cons] at h
    omega

theorem drainLoop_empty {item : α} {rest : List α} {retries : Nat} (s : σ)
    (h : retries < rest.length + 1) (he : isEmpty item = true) :
    drainLoop isEmpty send (item :: rest) retries s = drainLoop isEmpty send rest retries s := by
  rw [drainLoop, if_pos h, if_pos he]

theorem drainLoop_sent {item : α} {rest : List α} {retries : Nat} {s s' : σ}
    (h : retries < rest.length + 1) (he : isEmpty item = false) (hs : send item s = (true, s')) :
    drainLoop isEmpty send (item :: rest) retries s = drainLoop isEmpty send rest 0 s' := by
  rw [drainLoop, if_pos h, if_neg (by simp [he]), hs]

theorem drainLoop_failed {item : α} {rest : List α} {retries : Nat} {s s' : σ}
    (h : retries < rest.length + 1) (he : isEmpty item = false) (hs : send item s = (false, s')) :
    drainLoop isEmpty send (item :: rest) retries s =
      drainLoop isEmpty send (rest ++ [item]) (retries + 1) s' := by
  rw [drainLoop, if_pos h, if_neg (by simp [he]), hs]

theorem drainLoop_invariant {P : σ → Prop} (keep : ∀ item s, P s → P (send item s).2)
    (queue : List α) (retries : Nat) (s : σ) (hs : P s) :
    P (drainLoop isEmpty send queue retries s).2 := by
  fun_induction drainLoop isEmpty send queue retries s with
  | case1 => exact hs
  | case2 _ _ _ _ _ _ ih => exact ih hs
  | case3 _ s item _ _ _ s' he ih =>
    have hk := keep item s hs
    rw [he] at hk
    exact ih hk
  | case4 _ s item _ _ _ s' he ih =>
    have hk := keep item s hs
    rw [he] at hk
    exact ih hk
  | case5 => exact hs

end Drain

end ModAudioStream
