import ModAudioStream.SendQueue
import ModAudioStream.CStrings

namespace ModAudioStream

/-- Where a call of `send_text` is, and of the `stream_session_send_text` that it calls; its next
step is the one named. `SWITCH_STATUS_SUCCESS` is `true`. -/
inductive SendTextPc where
  | sendText
  | getPrivate
  | getUserData
  | copyStreamer
  | isConnected
  | sendMessage
  | returned (status : Bool)
deriving DecidableEq, Repr

/-- The call has not found a streamer yet. -/
def SendTextPc.looks : SendTextPc → Bool
  | .sendText | .getPrivate | .getUserData | .copyStreamer => true
  | .isConnected | .sendMessage | .returned _ => false

theorem SendTextPc.cases (pc : SendTextPc) :
    pc.looks = true ∨ pc = .isConnected ∨ pc = .sendMessage ∨ ∃ status, pc = .returned status := by
  cases pc <;> simp [looks]

/-- What the call finds: the media bug of the channel, its user data, a streamer in it, and the
client of that streamer. `pushed` records what the call itself has put on the queue. -/
structure SendTextCall where
  bug : Bool
  userData : Bool
  streamer : Bool
  state : State
  queue : List SendItem
  pc : SendTextPc
  pushed : List SendItem

/-- A step of the call, or of everything else: the commands and the cleanup, the worker that
changes the state and drains the queue, the frames that are put on it. -/
inductive SendTextAct where
  | call
  | others (bug userData streamer : Bool) (state : State) (queue : List SendItem)

namespace SendTextCall

def start (bug userData streamer : Bool) (state : State) (queue : List SendItem) :
    SendTextCall :=
  ⟨bug, userData, streamer, state, queue, .sendText, []⟩

/-- `sendMessage` with its push, which returns nothing. -/
def push (s : SendTextCall) (text : CString) : SendTextCall :=
  match sendMessage text.bytes s.queue.length with
  | none => s
  | some item => { s with queue := s.queue ++ [item], pushed := s.pushed ++ [item] }

def callStep (s : SendTextCall) (text : CString) : SendTextCall :=
  match s.pc with
  | .sendText => { s with pc := if s.bug then .getPrivate else .returned false }
  | .getPrivate => { s with pc := if s.bug then .getUserData else .returned false }
  | .getUserData => { s with pc := if s.userData then .copyStreamer else .returned false }
  | .copyStreamer => { s with pc := if s.streamer then .isConnected else .returned false }
  | .isConnected =>
    { s with pc := if s.state = .opened then .sendMessage else .returned true }
  | .sendMessage => { s.push text with pc := .returned true }
  | .returned _ => s

def step (text : CString) (s : SendTextCall) : SendTextAct → SendTextCall
  | .call => s.callStep text
  | .others bug userData streamer state queue =>
    { s with bug := bug, userData := userData, streamer := streamer, state := state,
             queue := queue }

/-- What the call returns says whether the text has got onto the queue. -/
def Honest (text : CString) (s : SendTextCall) : Prop :=
  ∀ status, s.pc = .returned status → (status = true ↔ ⟨text.bytes, false⟩ ∈ s.pushed)

/-- A step at which the text is dropped: the client is not connected when `writeText` asks, or
the queue is full when `sendMessage` has its lock. -/
def Drops (s : SendTextCall) : SendTextAct → Prop
  | .call =>
    (s.pc = .isConnected ∧ s.state ≠ .opened) ∨
      (s.pc = .sendMessage ∧ maxSendQueue ≤ s.queue.length)
  | .others .. => False

/-- Before it returns the call has put nothing on the queue. -/
def Fresh (s : SendTextCall) : Prop := (∃ status, s.pc = .returned status) ∨ s.pushed = []

variable {text : CString}

theorem push_room (s : SendTextCall) (htext : text.bytes ≠ [])
    (h : s.queue.length < maxSendQueue) :
    s.push text = { s with queue := s.queue ++ [⟨text.bytes, false⟩],
                           pushed := s.pushed ++ [⟨text.bytes, false⟩] } := by
  have hempty : ¬text.bytes.isEmpty = true := by
    intro hnil
    exact htext (List.isEmpty_iff.mp hnil)
  have hpush : sendMessage text.bytes s.queue.length = some ⟨text.bytes, false⟩ := by
    rw [sendMessage, if_neg hempty]
    exact unlessFull_eq_some.mpr ⟨h, rfl⟩
  rw [push, hpush]

theorem push_full (s : SendTextCall) (h : maxSendQueue ≤ s.queue.length) : s.push text = s := by
  have hpush : sendMessage text.bytes s.queue.length = none := by
    rw [sendMessage, unlessFull, if_pos h, ite_self]
  rw [push, hpush]

theorem fresh_of_pc {s : SendTextCall} {pc : SendTextPc} (hfresh : s.Fresh) (hpc : s.pc = pc)
    (hnot : ∀ status, pc ≠ .returned status) : s.pushed = [] := by
  rcases hfresh with ⟨status, hret⟩ | hpushed
  · exact absurd (hpc.symm.trans hret) (hnot status)
  · exact hpushed

theorem moves_on {s : SendTextCall} (hpushed : s.pushed = []) {found : Bool} {next : SendTextPc}
    (hnext : next ≠ .returned true) :
    let t := { s with pc := if found then next else .returned false }
    t.pushed = [] ∧ t.pc ≠ .returned true := by
  refine ⟨hpushed, ?_⟩
  cases found with
  | false => exact nofun
  | true => exact hnext

/-- A step of a call that looks for the streamer moves on, or refuses. -/
theorem callStep_looks {s : SendTextCall} (hfresh : s.Fresh) (hlooks : s.pc.looks = true) :
    (s.callStep text).pushed = [] ∧ (s.callStep text).pc ≠ .returned true := by
  have hpushed : s.pushed = [] := by
    rcases hfresh with ⟨status, hret⟩ | hpushed
    · rw [hret] at hlooks
      cases hlooks
    · exact hpushed
  unfold callStep
  split
  next => exact moves_on hpushed nofun
  next => exact moves_on hpushed nofun
  next => exact moves_on hpushed nofun
  next => exact moves_on hpushed nofun
  next hpc => simp [hpc, SendTextPc.looks] at hlooks
  next hpc => simp [hpc, SendTextPc.looks] at hlooks
  next hpc => simp [hpc, SendTextPc.looks] at hlooks

theorem fresh_step (s : SendTextCall) (a : SendTextAct) (t : SendTextCall) (h : s.Fresh)
    (hstep : s.step text a = t) : t.Fresh := by
  subst hstep
  cases a with
  | others => exact h
  | call =>
    rcases s.pc.cases with hlooks | hpc | hpc | ⟨status, hpc⟩
    · exact Or.inr (callStep_looks h hlooks).1
    · refine Or.inr ?_
      simp only [step, callStep, hpc]
      exact fresh_of_pc h hpc nofun
    · refine Or.inl ⟨true, ?_⟩
      simp only [step, callStep, hpc]
    · refine Or.inl ⟨status, ?_⟩
      simp only [step, callStep, hpc]

theorem honest_of_moves {s : SendTextCall} (hpushed : s.pushed = [])
    (hpc : s.pc ≠ .returned true) : Honest text s := by
  intro status hret
  rw [hpushed]
  refine iff_of_false ?_ List.not_mem_nil
  rintro rfl
  exact hpc hret

/-- A step that drops nothing keeps what the call returns honest. -/
theorem honest_step (htext : text.bytes ≠ []) (s : SendTextCall) (a : SendTextAct)
    (t : SendTextCall) (hfresh : s.Fresh) (h : Honest text s) (hdrops : ¬s.Drops a)
    (hstep : s.step text a = t) : Honest text t := by
  subst hstep
  cases a with
  | others => exact h
  | call =>
    rcases s.pc.cases with hlooks | hpc | hpc | ⟨status, hpc⟩
    · obtain ⟨hpushed, hret⟩ := @callStep_looks text s hfresh hlooks
      exact honest_of_moves hpushed hret
    · have hopen : s.state = .opened := by
        by_contra hnot
        exact hdrops (Or.inl ⟨hpc, hnot⟩)
      have hpushed := fresh_of_pc hfresh hpc nofun
      apply honest_of_moves
      · simp only [step, callStep, hpc]
        exact hpushed
      · simp only [step, callStep, hpc, hopen, if_true]
        exact nofun
    · have hroom : s.queue.length < maxSendQueue := by
        by_contra hfull
        exact hdrops (Or.inr ⟨hpc, by omega⟩)
      intro status hret
      simp only [step, callStep, hpc, push_room s htext hroom, SendTextPc.returned.injEq] at hret
      simp only [step, callStep, hpc, push_room s htext hroom]
      exact iff_of_true hret.symm (List.mem_append_right _ List.mem_cons_self)
    · have hsame : s.step text .call = s := by simp only [step, callStep, hpc]
      rw [hsame]
      exact h

/-- A step that drops the text returns success all the same. -/
theorem not_honest_drop (s : SendTextCall) (a : SendTextAct) (hfresh : s.Fresh)
    (hdrops : s.Drops a) : ¬Honest text (s.step text a) := by
  cases a with
  | others => exact hdrops.elim
  | call =>
    intro h
    rcases hdrops with ⟨hpc, hstate⟩ | ⟨hpc, hfull⟩
    · have hpushed := fresh_of_pc hfresh hpc nofun
      have hmem := (h true (by simp only [step, callStep, hpc, if_neg hstate])).mp rfl
      simp only [step, callStep, hpc, hpushed] at hmem
      cases hmem
    · have hpushed := fresh_of_pc hfresh hpc nofun
      have hmem := (h true (by simp only [step, callStep, hpc])).mp rfl
      simp only [step, callStep, hpc, push_full s hfull, hpushed] at hmem
      cases hmem

/-- Success is returned for a text that is queued, and for no other one, if and only if no step of
the call drops it. -/
theorem send_text_honest_iff (text : CString) (htext : text.bytes ≠ [])
    (bug userData streamer : Bool) (state : State) (queue : List SendItem)
    (acts : List SendTextAct) :
    Always (fun s a t => step text s a = t) (Honest text)
        (start bug userData streamer state queue) acts ↔
      Never (fun s a t => step text s a = t) Drops (start bug userData streamer state queue)
        acts := by
  refine always_iff_never (I := Fresh) fresh_step ?_ ?_ (Or.inr rfl) ?_
  · intro s a t hfresh h hdrops hstep
    exact honest_step htext s a t hfresh h hdrops hstep
  · intro s a hfresh _ hdrops
    exact ⟨_, rfl, not_honest_drop s a hfresh hdrops⟩
  · exact honest_of_moves rfl nofun

/-- A text for a client that is connected is queued. -/
theorem open_send_text_honest :
    Always (fun s a t => step ⟨ascii "hi", by decide⟩ s a = t) (Honest ⟨ascii "hi", by decide⟩)
      (start true true true .opened []) (List.replicate 6 .call) := by
  refine (send_text_honest_iff ⟨ascii "hi", by decide⟩ (by decide) true true true .opened []
    (List.replicate 6 .call)).mpr ?_
  simp [List.replicate, never_cons_iff, never_nil, Drops, step, callStep, start, push, sendMessage,
    unlessFull, maxSendQueue]

/-- While the client still connects, nothing is queued and success is returned. -/
theorem send_text_while_connecting : ¬∀ (text : CString) (bug userData streamer : Bool)
    (state : State) (queue : List SendItem) (acts : List SendTextAct), text.bytes ≠ [] →
    Always (fun s a t => step text s a = t) (Honest text)
      (start bug userData streamer state queue) acts := by
  intro hall
  have h := hall ⟨ascii "hi", by decide⟩ true true true .connecting [] (List.replicate 5 .call)
    (by decide) _ _ (List.prefix_refl _) (run_foldl _ _ _)
  have hmem := (h true rfl).mp rfl
  cases hmem

end SendTextCall

end ModAudioStream
