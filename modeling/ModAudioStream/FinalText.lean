import ModAudioStream.WorkerLoop

namespace ModAudioStream

def Sent.item? : Sent → Option SendItem
  | .item x => some x
  | _ => none

def itemsOf (sent : List Sent) : List SendItem := sent.filterMap Sent.item?

def itemsBeforeClose (sent : List Sent) : List SendItem := itemsOf (sent.takeWhile (· ≠ .close))

def WorkerPc.closed : WorkerPc → Bool
  | .exchange => true
  | .ended => true
  | _ => false

def StopPc.textQueued : StopPc → Bool
  | .writeText => false
  | .sendMessage _ => false
  | _ => true

namespace Session

/-- Once the Close frame is written, the items accepted before the stop and the text
passed to it stand ahead of it, in order. -/
def FinalTextSent (s : Session) : Prop :=
  .close ∈ s.sent → s.owed <+: itemsBeforeClose s.sent ∧
    (s.stop.textQueued = true → ∀ text, s.text = some text → text ≠ [] →
      ⟨text, false⟩ ∈ itemsBeforeClose s.sent)

/-- The step finds the client not `OPEN`, or the queue full, and drops the text. -/
def drops (s : Session) : SessionAct → Bool
  | .stop =>
    match s.stop with
    | .writeText => s.text.isSome && s.state != .opened
    | .sendMessage text => !text.isEmpty && maxSendQueue ≤ s.queue.length
    | _ => false
  | _ => false

/-- The worker writes the Close frame without a drain since the last item accepted
before the stop, or such an item is accepted after the Close frame. -/
def MissesDrain (s : Session) (a : SessionAct) : Prop :=
  (s.worker = .sendClose ∧ s.awaiting ≠ [] ∧ ∃ env, a = .worker env) ∨
    (.close ∈ s.sent ∧ s.stopped = false ∧ (s.pushed a).isSome)

structure Inv (s : Session) : Prop where
  nonempty : ∀ item ∈ s.queue, item.data.isEmpty = false
  queue : ∃ late, s.queue = s.awaiting ++ late ∧ (s.stopped = false → late = [])
  owed : s.owed <+: itemsOf s.sent ++ s.awaiting
  owed_eq : s.awaiting ≠ [] ∨ s.stopped = false → s.owed = itemsOf s.sent ++ s.awaiting
  closed : if s.worker.closed then ∃ pre, s.sent = pre ++ [.close] ∧ .close ∉ pre
    else .close ∉ s.sent
  early : s.stop.textQueued = false → s.stopped = false
  text : ∀ text, s.stop = .sendMessage text → s.text = some text
  textOwed : s.stop.textQueued = true → ∀ text, s.text = some text → text ≠ [] →
    ⟨text, false⟩ ∈ s.owed

theorem itemsOf_snoc (sent : List Sent) (x : Sent) :
    itemsOf (sent ++ [x]) = itemsOf sent ++ x.item?.toList := by
  cases x <;> simp [itemsOf, Sent.item?]

theorem itemsBeforeClose_append {pre : List Sent} (h : .close ∉ pre) (post : List Sent) :
    itemsBeforeClose (pre ++ post) = itemsOf pre ++ itemsBeforeClose post := by
  have hall : ∀ x ∈ pre, decide (x ≠ .close) = true := by
    intro x hx
    have hxc : x ≠ .close := fun he => h (he ▸ hx)
    simpa using hxc
  rw [itemsBeforeClose, List.takeWhile_append_of_pos hall, itemsOf, List.filterMap_append]
  rfl

theorem itemsBeforeClose_eq {s : Session} (h : s.Inv) :
    itemsBeforeClose s.sent = itemsOf s.sent := by
  have hc := h.closed
  split at hc
  · obtain ⟨pre, hs, hpre⟩ := hc
    rw [hs, itemsBeforeClose_append hpre, itemsOf_snoc]
    rfl
  · have happ := itemsBeforeClose_append hc []
    rw [List.append_nil] at happ
    rw [happ]
    exact List.append_nil _

theorem finalTextSent_iff {s : Session} (h : s.Inv) :
    s.FinalTextSent ↔ (.close ∈ s.sent → s.awaiting = []) := by
  have hitems := itemsBeforeClose_eq h
  constructor
  · intro hf hc
    by_contra hne
    have hpre := (hf hc).1
    rw [hitems, h.owed_eq (Or.inl hne)] at hpre
    have hlen := hpre.length_le
    simp only [List.length_append] at hlen
    have hpos := List.length_pos_of_ne_nil hne
    omega
  · intro ha hc
    have hpre : s.owed <+: itemsBeforeClose s.sent := by
      have ho := h.owed
      rw [ha hc, List.append_nil] at ho
      rw [hitems]
      exact ho
    exact ⟨hpre, fun hq text ht hne => hpre.subset (h.textOwed hq text ht hne)⟩

theorem inv_opened (text : Option (List UInt8)) : (opened text).Inv := by
  refine ⟨by simp [opened], ⟨[], rfl, fun _ => rfl⟩, List.nil_prefix, fun _ => rfl, ?_,
    fun _ => rfl, ?_, ?_⟩
  · simp [opened, WorkerPc.closed]
  · intro t ht
    cases ht
  · intro ht
    cases ht

theorem inv_accept {s : Session} (h : s.Inv) {item? : Option SendItem}
    (hi : ∀ item ∈ item?, item.data.isEmpty = false) : (s.accept item?).Inv := by
  cases item? with
  | none => exact h
  | some item =>
    obtain ⟨late, hq, hlate⟩ := h.queue
    have hne : ∀ x ∈ s.queue ++ [item], x.data.isEmpty = false := by
      intro x hx
      rcases List.mem_append.mp hx with hx | hx
      · exact h.nonempty x hx
      · exact List.mem_singleton.mp hx ▸ hi item rfl
    cases hst : s.stopped with
    | true =>
      refine ⟨hne, ⟨late ++ [item], ?_, ?_⟩, ?_, ?_, h.closed, h.early, h.text, ?_⟩
      · simp [accept, hst, hq]
      · simp [accept, hst]
      · simpa [accept, hst] using h.owed
      · simpa [accept, hst] using h.owed_eq
      · simpa [accept, hst] using h.textOwed
    | false =>
      have howed := h.owed_eq (Or.inr hst)
      refine ⟨hne, ⟨[], ?_, fun _ => rfl⟩, ?_, ?_, h.closed, h.early, h.text, ?_⟩
      · simp [accept, hst, hq, hlate hst]
      · simp [accept, hst, howed]
      · simp [accept, hst, howed]
      · intro htq text ht hnil
        simp only [accept, hst]
        exact List.mem_append_left _ (h.textOwed htq text ht hnil)

/-- A worker step before the Close frame that moves no item: it changes `state_` and
`running_` at most, and writes no more than a pong or a ping. -/
structure Quiet (s t : Session) : Prop where
  frame : t = { s with state := t.state, running := t.running, sent := t.sent, worker := t.worker }
  items : itemsOf t.sent = itemsOf s.sent
  close : .close ∈ t.sent ↔ .close ∈ s.sent
  open_ : s.worker ≠ .sendClose
  before : s.worker.closed = false
  after : t.worker.closed = false

theorem workerStep_cases (s : Session) (env : Env) :
    s.Quiet (s.workerStep env) ∨
    (s.worker = .drain true ∧ s.workerStep env = { s.drain with worker := .ping }) ∨
    (s.worker = .sendClose ∧
      s.workerStep env = { s with sent := s.sent ++ [.close], worker := .exchange }) ∨
    (s.worker.closed = true ∧ (s.workerStep env).worker = .ended ∧
      s.workerStep env = { s with state := .closed, worker := .ended } ∨
      s.worker = .ended ∧ s.workerStep env = s) := by
  have pong : ∀ x : Sent, x.item? = none → x ≠ .close →
      itemsOf (s.sent ++ [x]) = itemsOf s.sent ∧ (.close ∈ s.sent ++ [x] ↔ .close ∈ s.sent) := by
    intro x hx hc
    constructor
    · rw [itemsOf_snoc, hx]
      exact List.append_nil _
    · simp [hc.symm]
  unfold workerStep
  split
  case h_2 hw | h_4 hw | h_6 hw | h_8 hw | h_9 hw | h_10 hw | h_12 hw =>
    exact .inl ⟨rfl, rfl, Iff.rfl, by simp [hw], by rw [hw]; rfl, rfl⟩
  case h_3 hw | h_5 hw =>
    split <;> exact .inl ⟨rfl, rfl, Iff.rfl, by simp [hw], by rw [hw]; rfl, rfl⟩
  case h_1 hw =>
    refine .inl ⟨rfl, rfl, Iff.rfl, by simp [hw], by rw [hw]; rfl, ?_⟩
    cases s.running <;> rfl
  case h_7 payload rest pollout hw =>
    obtain ⟨hi, hc⟩ := pong (.pong payload) rfl (by simp)
    exact .inl ⟨rfl, hi, hc, by simp [hw], by rw [hw]; rfl, rfl⟩
  case h_11 hw => exact .inr (.inl ⟨hw, rfl⟩)
  case h_13 hw =>
    split
    · obtain ⟨hi, hc⟩ := pong .ping rfl (by simp)
      exact .inl ⟨rfl, hi, hc, by simp [hw], by rw [hw]; rfl, rfl⟩
    · exact .inl ⟨rfl, rfl, Iff.rfl, by simp [hw], by rw [hw]; rfl, rfl⟩
  case h_14 hw => exact .inr (.inr (.inl ⟨hw, rfl⟩))
  case h_15 hw => exact .inr (.inr (.inr (.inl ⟨by rw [hw]; rfl, rfl, rfl⟩)))
  case h_16 hw => exact .inr (.inr (.inr (.inr ⟨hw, rfl⟩)))

theorem inv_quiet {s t : Session} (h : s.Inv) (hq : s.Quiet t) : t.Inv := by
  obtain ⟨hframe, hitems, hclose, -, hs, ht⟩ := hq
  have hc := h.closed
  rw [hs] at hc
  rw [hframe]
  refine ⟨h.nonempty, h.queue, ?_, ?_, ?_, h.early, h.text, h.textOwed⟩
  · simpa [hitems] using h.owed
  · simpa [hitems] using h.owed_eq
  · simpa [ht, hclose] using hc

theorem inv_drain {s : Session} (h : s.Inv) (hs : s.worker.closed = false) :
    ({ s.drain with worker := .ping } : Session).Inv := by
  have hitems : itemsOf (s.sent ++ s.queue.map .item) = itemsOf s.sent ++ s.queue := by
    have hmap : (s.queue.map Sent.item).filterMap Sent.item? = s.queue := by
      rw [List.filterMap_map]
      exact @List.filterMap_some _ s.queue
    rw [itemsOf, List.filterMap_append, hmap, itemsOf]
  have hc := h.closed
  rw [hs] at hc
  obtain ⟨late, hq, hlate⟩ := h.queue
  rw [drain_eq h.nonempty]
  refine ⟨by simp, ⟨[], rfl, fun _ => rfl⟩, ?_, ?_, ?_, h.early, h.text, h.textOwed⟩
  · show s.owed <+: itemsOf (s.sent ++ s.queue.map .item) ++ []
    rw [hitems, hq, List.append_nil, ← List.append_assoc]
    exact h.owed.trans (List.prefix_append _ _)
  · rintro (hne | hst)
    · exact absurd rfl hne
    · show s.owed = itemsOf (s.sent ++ s.queue.map .item) ++ []
      rw [hitems, hq, hlate hst, List.append_nil, List.append_nil]
      exact h.owed_eq (Or.inr hst)
  · simpa [WorkerPc.closed] using hc

theorem inv_workerStep {s : Session} (h : s.Inv) (env : Env) : (s.workerStep env).Inv := by
  rcases workerStep_cases s env with hq | ⟨hw, heq⟩ | ⟨hw, heq⟩ | ⟨hw, -, heq⟩ | ⟨-, heq⟩
  · exact inv_quiet h hq
  · rw [heq]
    exact inv_drain h (by rw [hw]; rfl)
  · have hc := h.closed
    rw [hw] at hc
    rw [heq]
    refine ⟨h.nonempty, h.queue, ?_, ?_, ⟨s.sent, rfl, hc⟩, h.early, h.text, h.textOwed⟩
    · simpa [itemsOf_snoc, Sent.item?] using h.owed
    · simpa [itemsOf_snoc, Sent.item?] using h.owed_eq
  · have hc := h.closed
    rw [hw] at hc
    rw [heq]
    exact ⟨h.nonempty, h.queue, h.owed, h.owed_eq, hc, h.early, h.text, h.textOwed⟩
  · rw [heq]
    exact h

theorem sendMessage_eq_some {text : List UInt8} {queued : Nat} (hne : text ≠ [])
    (hroom : queued < maxSendQueue) : sendMessage text queued = some ⟨text, false⟩ := by
  have hempty : ¬text.isEmpty = true := by simpa using hne
  rw [sendMessage, if_neg hempty]
  exact unlessFull_eq_some.mpr ⟨hroom, rfl⟩

theorem inv_stopStep {s : Session} (h : s.Inv) (hd : s.drops .stop = false) :
    s.stopStep.Inv := by
  -- a step of the stopping thread that pushes nothing moves `state_`, `running_` and its pc
  have moves : ∀ (state : State) (running : Bool) (stop : StopPc),
      (stop.textQueued = false → s.stopped = false) →
      (∀ text, stop = .sendMessage text → s.text = some text) →
      (stop.textQueued = true → ∀ text, s.text = some text → text ≠ [] →
        ⟨text, false⟩ ∈ s.owed) →
      ({ s with state := state, running := running, stop := stop } : Session).Inv :=
    fun _ _ _ he ht ho => ⟨h.nonempty, h.queue, h.owed, h.owed_eq, h.closed, he, ht, ho⟩
  unfold stopStep
  split
  case h_1 hs =>
    have hearly := h.early (by rw [hs]; rfl)
    split
    next htext =>
      refine moves _ _ _ (fun _ => hearly) nofun fun _ text ht => ?_
      rw [htext] at ht
      cases ht
    next text htext =>
      split
      · exact moves _ _ _ (fun _ => hearly) (fun t ht => by cases ht; exact htext) nofun
      next hst =>
        simp [drops, hs, htext, hst] at hd
  case h_2 text hs =>
    have hearly := h.early (by rw [hs]; rfl)
    have htext := h.text text hs
    have hacc := @inv_accept s h (sendMessage text s.queue.length) fun _ => sendMessage_nonempty
    refine ⟨hacc.nonempty, hacc.queue, hacc.owed, hacc.owed_eq, hacc.closed, nofun, nofun, ?_⟩
    intro _ t ht hne
    have ht' : t = text := by
      have hh : s.text = some t := by
        cases hsend : sendMessage text s.queue.length <;> simpa [accept, hsend] using ht
      exact Option.some.inj (hh.symm.trans htext)
    subst ht'
    have hroom : s.queue.length < maxSendQueue := by
      simpa [drops, hs, hne] using hd
    rw [sendMessage_eq_some hne hroom]
    simp [accept, hearly]
  case h_3 hs => exact moves _ _ _ nofun nofun fun _ => h.textOwed (by rw [hs]; rfl)
  case h_4 hs =>
    split
    · exact moves _ _ _ nofun nofun fun _ => h.textOwed (by rw [hs]; rfl)
    · exact moves _ _ _ nofun nofun fun _ => h.textOwed (by rw [hs]; rfl)
  case h_5 hs => exact moves _ _ _ nofun nofun fun _ => h.textOwed (by rw [hs]; rfl)
  case h_6 hs =>
    obtain ⟨late, hq, _⟩ := h.queue
    refine ⟨h.nonempty, ⟨late, hq, nofun⟩, h.owed, ?_, h.closed, nofun, nofun,
      fun _ => h.textOwed (by rw [hs]; rfl)⟩
    rintro (hne | hst)
    · exact h.owed_eq (Or.inl hne)
    · cases hst
  case h_7 hs => exact moves _ _ _ nofun nofun fun _ => h.textOwed (by rw [hs]; rfl)
  case h_8 hs =>
    split
    · exact moves _ _ _ nofun nofun fun _ => h.textOwed (by rw [hs]; rfl)
    · exact h
  case h_9 => exact h

theorem pushed_nonempty {s : Session} {a : SessionAct} {item : SendItem} (h : item ∈ s.pushed a) :
    item.data.isEmpty = false := by
  cases a with
  | push x =>
    simp only [pushed] at h
    split at h
    · simp at h
    next hx =>
      obtain ⟨_, rfl⟩ := unlessFull_eq_some.mp h
      simpa using hx
  | stop =>
    simp only [pushed] at h
    split at h
    · exact sendMessage_nonempty h
    · simp at h
  | worker env => simp [pushed] at h

theorem inv_step {s : Session} (h : s.Inv) {a : SessionAct} (hd : s.drops a = false) :
    (s.step a).Inv := by
  cases a with
  | push item => exact inv_accept h fun _ => pushed_nonempty
  | stop => exact inv_stopStep h hd
  | worker env => exact inv_workerStep h env

theorem step_awaiting {s : Session} {a : SessionAct} (ha : ∀ env, a ≠ .worker env) :
    (s.step a).sent = s.sent ∧ (s.step a).awaiting =
      if s.stopped then s.awaiting else s.awaiting ++ (s.pushed a).toList := by
  have hacc : ∀ item? : Option SendItem, (s.accept item?).sent = s.sent ∧
      (s.accept item?).awaiting =
        if s.stopped then s.awaiting else s.awaiting ++ item?.toList := by
    intro item?
    cases item? with
    | none => simp [accept]
    | some item => simp [accept]
  cases a with
  | push item => exact hacc _
  | stop =>
    cases hs : s.stop with
    | writeText =>
      simp only [step, stopStep, pushed, hs]
      repeat' split
      all_goals simp
    | sendMessage text =>
      simp only [step, stopStep, pushed, hs]
      exact hacc _
    | load =>
      simp only [step, stopStep, pushed, hs]
      split
      all_goals simp
    | join =>
      simp only [step, stopStep, pushed, hs]
      split
      all_goals simp
    | _ => simp [step, stopStep, pushed, hs]
  | worker env => exact absurd rfl (ha env)

theorem not_drops {s : Session} {a : SessionAct} (h : s.MissesDrain a) : s.drops a = false := by
  rcases h with ⟨_, _, env, rfl⟩ | ⟨_, _, hp⟩
  · rfl
  · cases a with
    | push item => rfl
    | worker env => rfl
    | stop =>
      obtain ⟨item, hitem⟩ := Option.isSome_iff_exists.mp hp
      simp only [pushed] at hitem
      split at hitem
      next text hs =>
        unfold sendMessage at hitem
        split at hitem
        · simp at hitem
        · obtain ⟨hroom, _⟩ := unlessFull_eq_some.mp hitem
          simp [drops, hs, hroom]
      · simp at hitem

theorem finalTextSent_step_iff {s : Session} (hi : s.Inv) {a : SessionAct}
    (hd : s.drops a = false) (h : s.FinalTextSent) :
    (s.step a).FinalTextSent ↔ ¬s.MissesDrain a := by
  rw [finalTextSent_iff (inv_step hi hd)]
  rw [finalTextSent_iff hi] at h
  by_cases ha : ∃ env, a = .worker env
  · obtain ⟨env, rfl⟩ := ha
    show (.close ∈ (s.workerStep env).sent → (s.workerStep env).awaiting = []) ↔ _
    rcases workerStep_cases s env with hq | ⟨hw, heq⟩ | ⟨hw, heq⟩ | ⟨hw, -, heq⟩ | ⟨hw, heq⟩
    · rw [hq.close, show (s.workerStep env).awaiting = s.awaiting by rw [hq.frame]]
      simpa [MissesDrain, hq.open_, pushed] using h
    · rw [heq, drain_eq hi.nonempty]
      simp [MissesDrain, hw, pushed]
    · rw [heq]
      simp [MissesDrain, hw, pushed]
    · have hne : s.worker ≠ .sendClose := fun hc => by simp [hc, WorkerPc.closed] at hw
      rw [heq]
      simpa [MissesDrain, hne, pushed] using h
    · rw [heq]
      simpa [MissesDrain, hw, pushed] using h
  · have ha' : ∀ env, a ≠ .worker env := fun env he => ha ⟨env, he⟩
    obtain ⟨hsent, haw⟩ := step_awaiting (s := s) ha'
    rw [hsent, haw]
    by_cases hc : .close ∈ s.sent
    · rw [h hc]
      cases hst : s.stopped <;> simp [MissesDrain, hc, hst, ha]
    · simp [MissesDrain, hc, ha]

end Session

/-- One step of some thread, with `OPEN` found by the stop and room for its text. -/
def FinalStep (s : Session) (a : SessionAct) (t : Session) : Prop :=
  s.drops a = false ∧ s.step a = t

/-- Over every interleaving: the final text and all items accepted before the stop go
out ahead of the Close frame exactly when the worker drains the queue after the last of
them and before the Close frame. -/
theorem finalTextSent_iff_drained (text : Option (List UInt8)) (acts : List SessionAct) :
    Always FinalStep Session.FinalTextSent (.opened text) acts ↔
      Never FinalStep Session.MissesDrain (.opened text) acts := by
  refine always_iff_never (I := Session.Inv) ?_ ?_ ?_ (Session.inv_opened text) ?_
  · rintro s a t hi ⟨hd, rfl⟩
    exact Session.inv_step hi hd
  · rintro s a t hi hs hb ⟨hd, rfl⟩
    exact (Session.finalTextSent_step_iff hi hd hs).mpr hb
  · intro s a hi hs hb
    have hd := Session.not_drops hb
    exact ⟨s.step a, ⟨hd, rfl⟩, fun ht => (Session.finalTextSent_step_iff hi hd hs).mp ht hb⟩
  · simp [Session.FinalTextSent, Session.opened]

/-- The worker sleeps in `poll` for input only, a stop queues its text and clears
`running_`; the worker wakes, leaves its loop and closes. -/
def stopWhilePolling : List SessionAct :=
  List.replicate 2 (.worker ⟨.ready false false, .again, false⟩) ++ List.replicate 6 .stop ++
    List.replicate 6 (.worker ⟨.ready false false, .again, false⟩)

theorem finalText_left_in_queue :
    ¬Always FinalStep Session.FinalTextSent (.opened (some [98, 121, 101])) stopWhilePolling := by
  intro h
  have hrun : Run FinalStep (.opened (some [98, 121, 101])) stopWhilePolling
      (stopWhilePolling.foldl Session.step (.opened (some [98, 121, 101]))) := by
    repeat' first
      | exact Run.nil _
      | refine Run.cons ⟨rfl, rfl⟩ ?_
  have hend := h _ _ (List.prefix_refl _) hrun (by decide)
  exact absurd (hend.2 rfl _ rfl (by simp)) (by decide)

end ModAudioStream
