import ModAudioStream.QueueOrder
import Mathlib.Data.List.Enum

namespace ModAudioStream

/-- An item with the number it was accepted under: two equal payloads are two
items. -/
abbrev Numbered := SendItem × Nat

def drainNumbered (results : Nat → Bool) (queue sent : List Numbered) :
    List Numbered × (Nat × List Numbered) :=
  drainLoop (fun p => p.1.data.isEmpty) (sendBy results) queue 0 (0, sent)

theorem nodup_zipIdx (items : List SendItem) : items.zipIdx.Nodup := by
  have hnum : (items.zipIdx.map Prod.snd).Nodup := by
    rw [List.zipIdx_map_snd]
    exact List.nodup_range'
  exact hnum.of_map Prod.snd

/-- Numbering the items changes nothing of what the code does with them. -/
theorem drainSendQueue_eq_numbered (results : Nat → Bool) (queue : List SendItem) :
    drainSendQueue (sendBy results) queue (0, []) =
      ((drainNumbered results queue.zipIdx []).1.map Prod.fst,
        (drainNumbered results queue.zipIdx []).2.1,
        (drainNumbered results queue.zipIdx []).2.2.map Prod.fst) := by
  have hh := @drainLoop_map _ (fun item : SendItem => item.data.isEmpty) results Numbered Prod.fst
    queue.zipIdx 0 (0, [])
  rw [List.zipIdx_map_fst] at hh
  exact hh

def DrainKeepsOrder (results : Nat → Bool) (queue : List SendItem) : Prop :=
  (drainNumbered results queue.zipIdx []).2.2 ++ (drainNumbered results queue.zipIdx []).1 =
    queue.zipIdx

def NoLateSuccess (results : Nat → Bool) (n : Nat) : Prop :=
  ∀ i j, i < j → j < n → results j = true → results i = true

/-- `sendQueue_`, with every item accepted into it and every item reported sent. -/
structure SendQueue where
  queue : List Numbered
  accepted : List Numbered
  sent : List Numbered

inductive QueueAct where
  | sendBinary (state : State) (data : List UInt8)
  | sendMessage (text : List UInt8)
  | drainSendQueue (results : Nat → Bool)

namespace SendQueue

def empty : SendQueue := ⟨[], [], []⟩

def accept (q : SendQueue) : Option SendItem → SendQueue
  | none => q
  | some item =>
    { q with queue := q.queue ++ [(item, q.accepted.length)],
             accepted := q.accepted ++ [(item, q.accepted.length)] }

def drain (q : SendQueue) (results : Nat → Bool) : SendQueue :=
  let out := drainNumbered results q.queue q.sent
  { q with queue := out.1, sent := out.2.2 }

def step (q : SendQueue) : QueueAct → SendQueue
  | .sendBinary state data => q.accept (sendBinary state data q.queue.length)
  | .sendMessage text => q.accept (sendMessage text q.queue.length)
  | .drainSendQueue results => q.drain results

def InOrder (q : SendQueue) : Prop := q.sent ++ q.queue = q.accepted

def Complete (q : SendQueue) : Prop := (q.sent ++ q.queue).Perm q.accepted

def LateSuccess (q : SendQueue) : QueueAct → Prop
  | .drainSendQueue results => ¬NoLateSuccess results q.queue.length
  | _ => False

structure Inv (q : SendQueue) : Prop where
  nonempty : ∀ p ∈ q.queue, p.1.data.isEmpty = false
  numbered : ∃ items : List SendItem, q.accepted = items.zipIdx
  complete : q.Complete

theorem inv_empty : empty.Inv := ⟨by simp [empty], ⟨[], rfl⟩, List.Perm.refl _⟩

theorem inv_accept {q : SendQueue} (h : q.Inv) {item? : Option SendItem}
    (hi : ∀ item ∈ item?, item.data.isEmpty = false) : (q.accept item?).Inv := by
  cases item? with
  | none => exact h
  | some item =>
    obtain ⟨items, ha⟩ := h.numbered
    refine ⟨?_, ⟨items ++ [item], ?_⟩, ?_⟩
    · intro p hp
      rcases List.mem_append.mp hp with hp | hp
      · exact h.nonempty p hp
      · rw [List.mem_singleton.mp hp]
        exact hi item rfl
    · simp [accept, ha, List.zipIdx_append]
    · show (q.sent ++ (q.queue ++ [(item, q.accepted.length)])).Perm
        (q.accepted ++ [(item, q.accepted.length)])
      rw [← List.append_assoc]
      exact h.complete.append_right _

theorem inOrder_accept {q : SendQueue} (h : q.InOrder) (item? : Option SendItem) :
    (q.accept item?).InOrder := by
  cases item? with
  | none => exact h
  | some item =>
    show q.sent ++ (q.queue ++ [(item, q.accepted.length)]) =
      q.accepted ++ [(item, q.accepted.length)]
    rw [← List.append_assoc, show q.sent ++ q.queue = q.accepted from h]

theorem inv_step {q : SendQueue} (h : q.Inv) (a : QueueAct) : (q.step a).Inv := by
  cases a with
  | sendBinary state data => exact inv_accept h fun _ => sendBinary_nonempty
  | sendMessage text => exact inv_accept h fun _ => sendMessage_nonempty
  | drainSendQueue results =>
    exact ⟨drainLoop_leaves_nonempty ⟨q.queue, [], by simp, rfl, by simp⟩, h.numbered,
      (drainLoop_perm h.nonempty).trans h.complete⟩

theorem inOrder_step {q : SendQueue} (hi : q.Inv) (h : q.InOrder) {a : QueueAct}
    (ha : ¬q.LateSuccess a) : (q.step a).InOrder := by
  cases a with
  | sendBinary state data => exact inOrder_accept h _
  | sendMessage text => exact inOrder_accept h _
  | drainSendQueue results =>
    have hm : NoLateSuccess results q.queue.length := not_not.mp ha
    have hh := @drainLoop_in_order _ _ results q.queue q.sent 0 hi.nonempty
      fun i j hij hj hr => by simpa using hm i j hij hj (by simpa using hr)
    exact hh.trans h

theorem not_inOrder_step {q : SendQueue} (hi : q.Inv) (h : q.InOrder) {a : QueueAct}
    (ha : q.LateSuccess a) : ¬(q.step a).InOrder := by
  cases a with
  | sendBinary state data => exact ha.elim
  | sendMessage text => exact ha.elim
  | drainSendQueue results =>
    simp only [LateSuccess, NoLateSuccess, not_forall] at ha
    obtain ⟨i, j, hij, hj, hr, hf⟩ := ha
    obtain ⟨items, hnum⟩ := hi.numbered
    have hnd : (q.sent ++ q.queue).Nodup := by
      rw [h, hnum]
      exact nodup_zipIdx items
    have hh := @drainLoop_out_of_order _ _ results q.queue q.sent 0 i j hnd hi.nonempty hij hj
      (by simpa using hf) (by simpa using hr)
    intro hin
    exact hh (Eq.trans hin h.symm)

end SendQueue

theorem drainKeepsOrder_iff (results : Nat → Bool) (queue : List SendItem) :
    DrainKeepsOrder results queue ↔
      (∀ item ∈ queue, item.data ≠ []) ∧ NoLateSuccess results queue.length := by
  have hlen : queue.zipIdx.length = queue.length := List.length_zipIdx
  constructor
  · intro h
    have hne : ∀ p ∈ queue.zipIdx, p.1.data.isEmpty = false := by
      intro p hp
      rw [← (h : _ = queue.zipIdx)] at hp
      rcases List.mem_append.mp hp with hp | hp
      · exact drainLoop_sends_nonempty (by simp) p hp
      · exact drainLoop_leaves_nonempty ⟨queue.zipIdx, [], by simp, rfl, by simp⟩ p hp
    refine ⟨fun item hi hnil => ?_, fun i j hij hj hr => ?_⟩
    · obtain ⟨n, hn, rfl⟩ := List.getElem_of_mem hi
      have hp : (queue[n], n) ∈ queue.zipIdx := by
        rw [List.mk_mem_zipIdx_iff_getElem?]
        exact List.getElem?_eq_getElem hn
      simpa [hnil] using hne _ hp
    · by_contra hf
      exact @drainLoop_out_of_order _ _ results queue.zipIdx [] 0 i j
        (by simpa using nodup_zipIdx queue) hne hij (by omega) (by simpa using hf)
        (by simpa using hr) h
  · rintro ⟨hne, hm⟩
    have hne' : ∀ p ∈ queue.zipIdx, p.1.data.isEmpty = false := by
      intro p hp
      simpa using hne p.1 (List.fst_mem_of_mem_zipIdx hp)
    exact @drainLoop_in_order _ _ results queue.zipIdx [] 0 hne'
      fun i j hij hj hr => by simpa using hm i j hij (by omega) (by simpa using hr)

def QueueStep (q : SendQueue) (a : QueueAct) (q' : SendQueue) : Prop := q.step a = q'

/-- A drain keeps the order of the queue exactly when no send in it succeeds
after one has failed; so does a run; and in no run is an item lost or
duplicated. -/
theorem drainSendQueue_fifo_iff (results : Nat → Bool) (queue : List SendItem)
    (acts : List QueueAct) :
    (DrainKeepsOrder results queue ↔
      (∀ item ∈ queue, item.data ≠ []) ∧ NoLateSuccess results queue.length) ∧
    (Always QueueStep SendQueue.InOrder .empty acts ↔
      Never QueueStep SendQueue.LateSuccess .empty acts) ∧
    Always QueueStep SendQueue.Complete .empty acts := by
  have keep : ∀ q a q', SendQueue.Inv q → QueueStep q a q' → SendQueue.Inv q' := by
    rintro q a q' hi rfl
    exact SendQueue.inv_step hi a
  refine ⟨drainKeepsOrder_iff results queue, ?_, ?_⟩
  · refine always_iff_never keep ?_ ?_ SendQueue.inv_empty rfl
    · rintro q a q' hi h ha rfl
      exact SendQueue.inOrder_step hi h ha
    · intro q a hi h ha
      exact ⟨_, rfl, SendQueue.not_inOrder_step hi h ha⟩
  · exact (always_of_invariant keep SendQueue.inv_empty acts).imp fun _ hi => hi.complete

/-- One failed send, and the next item goes out ahead of the one that failed. -/
theorem drainSendQueue_reorders :
    drainSendQueue (sendBy fun k => k == 1) [⟨[1], true⟩, ⟨[2], true⟩] (0, []) =
      ([⟨[1], true⟩], 3, [⟨[2], true⟩]) ∧
    ¬DrainKeepsOrder (fun k => k == 1) [⟨[1], true⟩, ⟨[2], true⟩] := by
  constructor
  · simp [drainSendQueue, drainLoop, sendBy]
  · simp [DrainKeepsOrder, drainNumbered, drainLoop, sendBy]

end ModAudioStream
