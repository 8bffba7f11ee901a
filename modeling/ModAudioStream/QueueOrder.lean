import ModAudioStream.SendQueue
import Mathlib.Data.List.Nodup
import Mathlib.Tactic.Common

namespace ModAudioStream

section Drain

variable {α σ : Type*} {isEmpty : α → Bool} {results : Nat → Bool}

theorem sendBy_true {item : α} {k : Nat} {sent : List α} (h : results k = true) :
    sendBy results item (k, sent) = (true, (k + 1, sent ++ [item])) := by
  simp [sendBy, h]

theorem sendBy_false {item : α} {k : Nat} {sent : List α} (h : results k = false) :
    sendBy results item (k, sent) = (false, (k + 1, sent)) := by
  simp [sendBy, h]

/-- When every item not yet tried fails, the queue is rotated once around. -/
theorem drainLoop_all_fail {front back sent : List α} {k : Nat}
    (hne : ∀ x ∈ front, isEmpty x = false) (hf : ∀ i < front.length, results (k + i) = false) :
    drainLoop isEmpty (sendBy results) (front ++ back) back.length (k, sent) =
      (back ++ front, (k + front.length, sent)) := by
  induction front generalizing back k with
  | nil =>
    rw [List.nil_append, drainLoop_exhausted _ (Nat.le_refl _), List.append_nil]
    rfl
  | cons x front ih =>
    have hk : results k = false := hf 0 (by simp)
    have hroom : back.length < (front ++ back).length + 1 := by
      simp only [List.length_append]
      omega
    have hlen : (back ++ [x]).length = back.length + 1 := by simp
    have hrest : ∀ i < front.length, results (k + 1 + i) = false := by
      intro i hi
      rw [show k + 1 + i = k + (i + 1) by omega]
      exact hf (i + 1) (by simpa using hi)
    rw [List.cons_append, drainLoop_failed hroom (hne x (by simp)) (sendBy_false hk),
      List.append_assoc, ← hlen, ih (fun y hy => hne y (by simp [hy])) hrest]
    simp only [List.append_assoc, List.singleton_append, List.length_cons]
    rw [show k + 1 + front.length = k + (front.length + 1) by omega]

theorem drainLoop_in_order {queue sent : List α} {k : Nat}
    (hne : ∀ x ∈ queue, isEmpty x = false)
    (hm : ∀ i j, i < j → j < queue.length → results (k + j) = true → results (k + i) = true) :
    let out := drainLoop isEmpty (sendBy results) queue 0 (k, sent)
    out.2.2 ++ out.1 = sent ++ queue := by
  induction queue generalizing k sent with
  | nil => simp [drainLoop_nil]
  | cons x queue ih =>
    cases hk : results k with
    | true =>
      rw [drainLoop_sent (by omega) (hne x (by simp)) (sendBy_true hk)]
      have hm' : ∀ i j, i < j → j < queue.length → results (k + 1 + j) = true →
          results (k + 1 + i) = true := by
        intro i j hij hj hr
        rw [show k + 1 + i = k + (i + 1) by omega]
        refine hm (i + 1) (j + 1) (by omega) (by simpa using hj) ?_
        rwa [show k + (j + 1) = k + 1 + j by omega]
      simpa using @ih (sent ++ [x]) (k + 1) (fun y hy => hne y (by simp [hy])) hm'
    | false =>
      have hfail : ∀ i < (x :: queue).length, results (k + i) = false := by
        intro i hi
        rcases Nat.eq_zero_or_pos i with rfl | hpos
        · exact hk
        · by_contra hr
          have h0 := hm 0 i hpos hi (by simpa using hr)
          simp [hk] at h0
      have hh := @drainLoop_all_fail α isEmpty results (x :: queue) [] sent k hne hfail
      simp only [List.append_nil, List.length_nil] at hh
      simp [hh]

theorem sent_prefix_drainLoop (queue : List α) (retries : Nat) (s : Nat × List α) :
    s.2 <+: (drainLoop isEmpty (sendBy results) queue retries s).2.2 := by
  have keep : ∀ (item : α) (t : Nat × List α), s.2 <+: t.2 →
      s.2 <+: (sendBy results item t).2.2 := by
    intro item t ht
    unfold sendBy
    split
    · exact ht.trans (List.prefix_append _ _)
    · exact ht
  exact drainLoop_invariant keep queue retries s (List.prefix_refl _)

/-- After a failure, a success among the items not yet tried sends one of them
ahead of the item that failed. -/
theorem drainLoop_overtakes {front back sent : List α} {k i : Nat}
    (hne : ∀ x ∈ front, isEmpty x = false) (hi : i < front.length)
    (hs : results (k + i) = true) :
    ∃ y ∈ front, sent ++ [y] <+:
      (drainLoop isEmpty (sendBy results) (front ++ back) back.length (k, sent)).2.2 := by
  induction front generalizing back k i with
  | nil => simp at hi
  | cons x front ih =>
    have hroom : back.length < (front ++ back).length + 1 := by
      simp only [List.length_append]
      omega
    cases hk : results k with
    | true =>
      rw [List.cons_append, drainLoop_sent hroom (hne x (by simp)) (sendBy_true hk)]
      exact ⟨x, by simp, sent_prefix_drainLoop _ _ (k + 1, sent ++ [x])⟩
    | false =>
      rw [List.cons_append, drainLoop_failed hroom (hne x (by simp)) (sendBy_false hk),
        List.append_assoc, show back.length + 1 = (back ++ [x]).length by simp]
      cases i with
      | zero => simp [hk] at hs
      | succ i =>
        obtain ⟨y, hy, hp⟩ := @ih (back ++ [x]) (k + 1) i
          (fun y hy => hne y (by simp [hy])) (by simpa using hi)
          (by rwa [show k + 1 + i = k + (i + 1) by omega])
        exact ⟨y, by simp [hy], hp⟩

theorem drainLoop_out_of_order {queue sent : List α} {k i j : Nat}
    (hnd : (sent ++ queue).Nodup) (hne : ∀ x ∈ queue, isEmpty x = false)
    (hij : i < j) (hj : j < queue.length) (hi : results (k + i) = false)
    (hs : results (k + j) = true) :
    let out := drainLoop isEmpty (sendBy results) queue 0 (k, sent)
    out.2.2 ++ out.1 ≠ sent ++ queue := by
  induction queue generalizing k i j sent with
  | nil => simp at hj
  | cons x queue ih =>
    cases hk : results k with
    | true =>
      rw [drainLoop_sent (by omega) (hne x (by simp)) (sendBy_true hk)]
      obtain ⟨i, rfl⟩ : ∃ i', i = i' + 1 := by
        cases i with
        | zero => simp [hk] at hi
        | succ i => exact ⟨i, rfl⟩
      obtain ⟨j, rfl⟩ : ∃ j', j = j' + 1 := ⟨j - 1, by omega⟩
      have hh := @ih (sent ++ [x]) (k + 1) i j (by simpa using hnd)
        (fun y hy => hne y (by simp [hy])) (by omega) (by simpa using hj)
        (by rwa [show k + 1 + i = k + (i + 1) by omega])
        (by rwa [show k + 1 + j = k + (j + 1) by omega])
      simpa using hh
    | false =>
      obtain ⟨j, rfl⟩ : ∃ j', j = j' + 1 := ⟨j - 1, by omega⟩
      obtain ⟨y, hy, more, hp⟩ := @drainLoop_overtakes α isEmpty results queue [x] sent (k + 1) j
        (fun y hy => hne y (by simp [hy])) (by simpa using hj)
        (by rwa [show k + 1 + j = k + (j + 1) by omega])
      rw [drainLoop_failed (by omega) (hne x (by simp)) (sendBy_false hk)]
      simp only [List.length_singleton] at hp
      simp only [ne_eq]
      rw [← hp]
      intro heq
      have hxy : x = y := by
        have hcons := List.append_cancel_left (by simpa using heq :
          sent ++ (y :: (more ++ _)) = sent ++ (x :: queue))
        exact (List.cons.inj hcons).1.symm
      have hx : x ∉ queue := (List.nodup_cons.mp (List.nodup_append.mp hnd).2.1).1
      exact hx (hxy ▸ hy)

/-- Every empty item is gone when the loop ends: the items it has gone round are
the last `retries` of the queue. -/
theorem drainLoop_leaves_nonempty {send : α → σ → Bool × σ} {queue : List α} {retries : Nat}
    {s : σ} (h : ∃ front back, queue = front ++ back ∧ retries = back.length ∧
      ∀ x ∈ back, isEmpty x = false) :
    ∀ x ∈ (drainLoop isEmpty send queue retries s).1, isEmpty x = false := by
  fun_induction drainLoop isEmpty send queue retries s with
  | case1 => simp
  | case2 retries s item rest hr he ih =>
    obtain ⟨front, back, hq, hb, hne⟩ := h
    cases front with
    | nil =>
      have hlen := congrArg List.length hq
      simp only [List.nil_append, List.length_cons] at hlen
      omega
    | cons x front => exact ih ⟨front, back, (List.cons.inj hq).2, hb, hne⟩
  | case3 retries s item rest hr he s' hs ih =>
    obtain ⟨front, back, hq, hb, hne⟩ := h
    cases front with
    | nil =>
      have hlen := congrArg List.length hq
      simp only [List.nil_append, List.length_cons] at hlen
      omega
    | cons x front =>
      obtain ⟨rfl, rfl⟩ := List.cons.inj hq
      refine ih ⟨front, back ++ [item], by simp, by simp [hb], ?_⟩
      intro y hy
      rcases List.mem_append.mp hy with hy | hy
      · exact hne y hy
      · rw [List.mem_singleton.mp hy]
        simpa using he
  | case4 retries s item rest hr he s' hs ih => exact ih ⟨rest, [], by simp, rfl, by simp⟩
  | case5 retries s item rest hr =>
    obtain ⟨front, back, hq, hb, hne⟩ := h
    have hlen := congrArg List.length hq
    simp only [List.length_append, List.length_cons] at hlen
    have hfront : front = [] := List.length_eq_zero_iff.mp (by omega)
    rw [hq, hfront]
    exact hne

theorem drainLoop_sends_nonempty {queue : List α} {retries : Nat} {s : Nat × List α}
    (h : ∀ x ∈ s.2, isEmpty x = false) :
    ∀ x ∈ (drainLoop isEmpty (sendBy results) queue retries s).2.2, isEmpty x = false := by
  fun_induction drainLoop isEmpty (sendBy results) queue retries s with
  | case1 => exact h
  | case2 _ _ _ _ _ _ ih => exact ih h
  | case3 _ s item _ _ he s' hs ih =>
    refine ih ?_
    unfold sendBy at hs
    obtain ⟨hr, rfl⟩ := Prod.mk.inj hs
    simpa [hr] using h
  | case4 _ s item _ _ he s' hs ih =>
    refine ih ?_
    unfold sendBy at hs
    obtain ⟨hr, rfl⟩ := Prod.mk.inj hs
    intro x hx
    simp only [hr, if_true, List.mem_append, List.mem_singleton] at hx
    rcases hx with hx | rfl
    · exact h x hx
    · simpa using he
  | case5 => exact h

theorem drainLoop_perm {queue : List α} {retries : Nat} {s : Nat × List α}
    (hne : ∀ x ∈ queue, isEmpty x = false) :
    ((drainLoop isEmpty (sendBy results) queue retries s).2.2 ++
      (drainLoop isEmpty (sendBy results) queue retries s).1).Perm (s.2 ++ queue) := by
  fun_induction drainLoop isEmpty (sendBy results) queue retries s with
  | case1 => exact List.Perm.refl _
  | case2 _ _ item _ _ he _ => simp [hne item (by simp)] at he
  | case3 _ s item rest _ _ s' hs ih =>
    unfold sendBy at hs
    obtain ⟨hr, rfl⟩ := Prod.mk.inj hs
    have hh := ih fun x hx => hne x (by simpa [or_comm] using hx)
    have hrotate : (rest ++ [item]).Perm (item :: rest) := List.perm_append_comm
    simp only [hr, Bool.false_eq_true, if_false] at hh ⊢
    exact hh.trans (hrotate.append_left s.2)
  | case4 _ s item rest _ _ s' hs ih =>
    unfold sendBy at hs
    obtain ⟨hr, rfl⟩ := Prod.mk.inj hs
    have hh := ih fun x hx => hne x (by simp [hx])
    simp only [hr, if_true] at hh ⊢
    simpa using hh
  | case5 => exact List.Perm.refl _

theorem drainLoop_map {β : Type*} (f : β → α) (queue : List β) (retries : Nat)
    (s : Nat × List β) :
    drainLoop isEmpty (sendBy results) (queue.map f) retries (s.1, s.2.map f) =
      ((drainLoop (fun x => isEmpty (f x)) (sendBy results) queue retries s).1.map f,
        (drainLoop (fun x => isEmpty (f x)) (sendBy results) queue retries s).2.1,
        (drainLoop (fun x => isEmpty (f x)) (sendBy results) queue retries s).2.2.map f) := by
  fun_induction drainLoop (fun x => isEmpty (f x)) (sendBy results) queue retries s with
  | case1 => simp [drainLoop_nil]
  | case2 retries s item rest hr he ih =>
    rw [List.map_cons, drainLoop_empty _ (by simpa using hr) he]
    exact ih
  | case3 retries s item rest hr he s' hs ih =>
    unfold sendBy at hs
    obtain ⟨hk, rfl⟩ := Prod.mk.inj hs
    rw [List.map_cons, drainLoop_failed (by simpa using hr) (by simpa using he) (sendBy_false hk)]
    simpa [hk] using ih
  | case4 retries s item rest hr he s' hs ih =>
    unfold sendBy at hs
    obtain ⟨hk, rfl⟩ := Prod.mk.inj hs
    rw [List.map_cons, drainLoop_sent (by simpa using hr) (by simpa using he) (sendBy_true hk)]
    simpa [hk] using ih
  | case5 retries s item rest hr =>
    rw [List.map_cons, drainLoop_exhausted _ (by simpa using hr)]

end Drain

end ModAudioStream
