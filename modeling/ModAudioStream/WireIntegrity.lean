import ModAudioStream.WireLog

namespace ModAudioStream

def accepted (log : List Write) : List Write := log.filter fun wr => 0 < wr.taken

def acceptedBytes (log : List Write) : List UInt8 := log.flatMap Write.bytes

/-- The frames whose first bytes the socket took. -/
def begunFrames (log : List Write) : List (List UInt8) :=
  ((accepted log).filter fun wr => wr.offset = 0).map Write.frame

/-- The next bytes accepted are the rest of the same frame, or the first of another
one when none are left. -/
def Continues (a b : Write) : Prop :=
  if a.offset + a.taken < a.frame.length then
    b.call = a.call ∧ b.frame = a.frame ∧ b.offset = a.offset + a.taken
  else b.offset = 0

/-- The bytes accepted so far are a prefix of the encoded frames begun so far. -/
structure Intact (log : List Write) : Prop where
  bytes : acceptedBytes log <+: (begunFrames log).flatten
  encoded : ∀ frame ∈ begunFrames log, IsEncoded frame
  continues : (accepted log).IsChain Continues

/-- The socket took some of the bytes it was offered, but not all. -/
def Write.Short (wr : Write) : Prop := 0 < wr.taken ∧ wr.offset + wr.taken < wr.frame.length

/-- Once the socket refuses the write after a short one, it takes nothing any more. -/
def NoLostTail (log : List Write) : Prop :=
  ∀ before p e after, log = before ++ p :: e :: after → p.Short → e.taken = 0 →
    ∀ e' ∈ after, e'.taken = 0

theorem NoLostTail.upTo {log moment : List Write} (h : NoLostTail log) (hm : moment <+: log) :
    NoLostTail moment := by
  obtain ⟨rest, rfl⟩ := hm
  intro before p e after heq hshort he e' he'
  refine h before p e (after ++ rest) ?_ hshort he e' (List.mem_append_left _ he')
  rw [heq, List.append_assoc, List.cons_append, List.cons_append]

theorem NoLostTail.tail {p : Write} {log : List Write} (h : NoLostTail (p :: log)) :
    NoLostTail log := by
  intro before q e after heq
  exact h (p :: before) q e after (by rw [heq, List.cons_append])

theorem accepted_cons (wr : Write) (log : List Write) :
    accepted (wr :: log) = if 0 < wr.taken then wr :: accepted log else accepted log := by
  simp [accepted, List.filter_cons]

theorem accepted_eq_nil {log : List Write} (h : ∀ e ∈ log, e.taken = 0) : accepted log = [] := by
  refine List.filter_eq_nil_iff.mpr fun e he => ?_
  simp [h e he]

theorem mem_accepted {log : List Write} {wr : Write} :
    wr ∈ accepted log ↔ wr ∈ log ∧ 0 < wr.taken := by
  simp [accepted]

theorem acceptedBytes_eq (log : List Write) :
    acceptedBytes log = (accepted log).flatMap Write.bytes := by
  induction log with
  | nil => rfl
  | cons wr log ih =>
    rw [accepted_cons]
    show wr.bytes ++ acceptedBytes log = _
    split
    · rw [ih, List.flatMap_cons]
    next h =>
      have hz : wr.taken = 0 := by omega
      rw [ih, show wr.bytes = [] by simp [Write.bytes, hz], List.nil_append]

theorem call_lt_of_failed {e : Write} {after : List Write}
    (h : (e :: after).IsChain NextWrite) (he : e.taken = 0) : ∀ x ∈ after, e.call < x.call := by
  have hmono : (e :: after).IsChain fun a b => a.call ≤ b.call := by
    refine h.imp fun a b hab => ?_
    rcases hab with ⟨hc, _⟩ | ⟨hc, _⟩
    · exact hc.ge
    · exact hc.le
  cases after with
  | nil => simp
  | cons f after =>
    have hf : e.call < f.call := by
      rcases h.rel with ⟨_, _, _, ht⟩ | ⟨hc, _⟩
      · omega
      · exact hc
    have hpair : (f :: after).Pairwise fun a b => a.call ≤ b.call := by
      have : IsTrans Write fun a b => a.call ≤ b.call := ⟨fun _ _ _ => Nat.le_trans⟩
      exact List.isChain_iff_pairwise.mp hmono.tail
    intro x hx
    rcases List.mem_cons.mp hx with rfl | hx
    · exact hf
    · exact Nat.lt_of_lt_of_le hf (List.rel_of_pairwise_cons hpair hx)

theorem accepted_head_offset {e : Write} {rest : List Write}
    (h : (e :: rest).IsChain NextWrite) (he : e.offset = 0) :
    ∀ x ∈ (accepted (e :: rest)).head?, x.offset = 0 := by
  induction rest generalizing e with
  | nil =>
    intro x hx
    rw [accepted_cons] at hx
    split at hx
    · have hex : e = x := by simpa using hx
      exact hex ▸ he
    · simp [accepted] at hx
  | cons f rest ih =>
    intro x hx
    rw [accepted_cons] at hx
    split at hx
    · have hex : e = x := by simpa using hx
      exact hex ▸ he
    next ht =>
      refine ih h.tail ?_ x hx
      rcases h.rel with ⟨_, _, _, hpos⟩ | ⟨_, hoff, _⟩
      · exact absurd hpos ht
      · exact hoff

theorem continues_of_noLostTail {log : List Write} (hchain : log.IsChain NextWrite)
    (hsound : ∀ e ∈ log, e.Sound) (h : NoLostTail log) : (accepted log).IsChain Continues := by
  induction log with
  | nil => exact .nil
  | cons p rest ih =>
    have hrest := ih hchain.tail (fun e he => hsound e (List.mem_cons_of_mem p he)) h.tail
    rw [accepted_cons]
    split
    next hp =>
      refine hrest.cons fun x hx => ?_
      cases rest with
      | nil => simp [accepted] at hx
      | cons e after =>
        have hlt := (hsound e (by simp)).pending
        rcases hchain.rel with ⟨hcall, hframe, hoff, _⟩ | ⟨_, hoff, hdone⟩
        · rw [hframe, hoff] at hlt
          by_cases he : 0 < e.taken
          · rw [accepted_cons, if_pos he] at hx
            have hex : e = x := by simpa using hx
            subst hex
            rw [Continues, if_pos hlt]
            exact ⟨hcall, hframe, hoff⟩
          · have hnil : accepted after = [] :=
              accepted_eq_nil (h [] p e after rfl ⟨hp, hlt⟩ (by omega))
            simp [accepted_cons, he, hnil] at hx
        · have hfull : p.offset + p.taken = p.frame.length := by omega
          rw [Continues, if_neg (by omega)]
          exact accepted_head_offset hchain.tail hoff x hx
    · exact hrest

theorem begun_cons (wr : Write) (ws : List Write) :
    ((wr :: ws).filter fun w => w.offset = 0).map Write.frame =
      if wr.offset = 0 then wr.frame :: (ws.filter fun w => w.offset = 0).map Write.frame
      else (ws.filter fun w => w.offset = 0).map Write.frame := by
  by_cases h : wr.offset = 0 <;> simp [h]

theorem Write.bytes_append_rest (wr : Write) :
    wr.bytes ++ wr.frame.drop (wr.offset + wr.taken) = wr.frame.drop wr.offset := by
  rw [Write.bytes, ← List.drop_drop, List.take_append_drop]

theorem bytes_prefix_of_continues {a : Write} {ws : List Write}
    (hchain : (a :: ws).IsChain Continues) (ht : ∀ w ∈ a :: ws, 0 < w.taken) :
    (a :: ws).flatMap Write.bytes <+:
      a.frame.drop a.offset ++ ((ws.filter fun w => w.offset = 0).map Write.frame).flatten := by
  induction ws generalizing a with
  | nil =>
    simp only [List.flatMap_cons, List.flatMap_nil, List.append_nil, List.filter_nil,
      List.map_nil, List.flatten_nil]
    exact List.take_prefix _ _
  | cons b ws ih =>
    have hb := ih hchain.tail fun w hw => ht w (List.mem_cons_of_mem a hw)
    have hpos := ht a (by simp)
    have hab := hchain.rel
    rw [begun_cons, List.flatMap_cons, ← a.bytes_append_rest, List.append_assoc]
    refine (List.prefix_append_right_inj _).mpr ?_
    unfold Continues at hab
    split at hab
    next hlt =>
      obtain ⟨_, hframe, hoff⟩ := hab
      rw [if_neg (by omega), ← hframe, ← hoff]
      exact hb
    next hge =>
      rw [if_pos hab, List.drop_eq_nil_of_le (by omega), List.nil_append, List.flatten_cons]
      rw [hab, List.drop_zero] at hb
      exact hb

theorem intact_of_continues {log : List Write} (h : WellLogged log)
    (hc : (accepted log).IsChain Continues) : Intact log := by
  have ht : ∀ w ∈ accepted log, 0 < w.taken := fun w hw => (mem_accepted.mp hw).2
  refine ⟨?_, ?_, hc⟩
  · rw [acceptedBytes_eq, begunFrames]
    cases hacc : accepted log with
    | nil => simp
    | cons a ws =>
      rw [hacc] at hc ht
      have hoff : a.offset = 0 := by
        cases log with
        | nil => simp [accepted] at hacc
        | cons e rest =>
          have hs := accepted_head_offset h.chain (h.starts e rfl) a
          rw [hacc] at hs
          exact hs rfl
      have hb := bytes_prefix_of_continues hc ht
      rw [hoff, List.drop_zero] at hb
      rw [begun_cons, if_pos hoff, List.flatten_cons]
      exact hb
  · intro frame hframe
    obtain ⟨wr, hwr, rfl⟩ := List.mem_map.mp hframe
    exact (h.sound wr (mem_accepted.mp (List.mem_of_mem_filter hwr)).1).encoded

theorem intact_of_noLostTail {log : List Write} (h : WellLogged log) (hn : NoLostTail log) :
    ∀ moment, moment <+: log → Intact moment := by
  intro moment hm
  have hw := h.upTo hm
  exact intact_of_continues hw (continues_of_noLostTail hw.chain hw.sound (hn.upTo hm))

theorem noLostTail_of_intact {log : List Write} (h : WellLogged log) (hi : Intact log) :
    NoLostTail log := by
  rintro before p e after rfl ⟨hp, hshort⟩ he
  by_contra hex
  obtain ⟨x, hx, hxt⟩ : ∃ x ∈ after, 0 < x.taken := by
    simpa [Nat.pos_iff_ne_zero] using hex
  have hchain := h.chain.right_of_append
  have hlater := call_lt_of_failed hchain.tail he
  obtain ⟨y, ys, hy⟩ := List.exists_cons_of_ne_nil
    (List.ne_nil_of_mem (mem_accepted.mpr ⟨hx, hxt⟩))
  have hya : y ∈ after := (mem_accepted.mp (hy ▸ List.mem_cons_self)).1
  have hacc : accepted (before ++ p :: e :: after) = accepted before ++ p :: y :: ys := by
    have hsplit : accepted (before ++ p :: e :: after) =
        accepted before ++ accepted (p :: e :: after) := List.filter_append ..
    rw [hsplit, accepted_cons, if_pos hp, accepted_cons, if_neg (by omega), hy]
  have hcall : y.call = p.call := by
    have hcont := hi.continues
    rw [hacc] at hcont
    have hpy : Continues p y := hcont.right_of_append.rel
    rw [Continues, if_pos hshort] at hpy
    exact hpy.1
  have hlt := hlater y hya
  rcases hchain.rel with ⟨hc, _⟩ | ⟨hc, _⟩
  · omega
  · omega

structure SendSide where
  queue : List SendItem
  wire : Wire

/-- What happens to them: a producer queues an item, or the worker drains the queue,
answers a ping, pings, or leaves its loop and closes. -/
inductive SendAct where
  | sendBinary (state : State) (data : List UInt8)
  | sendMessage (text : List UInt8)
  | drain
  | pong (payload : List UInt8)
  | ping
  | close

namespace SendSide

def start (sockfd : Int) (results : Nat → WriteResult) (masks : Nat → MaskKey) : SendSide :=
  ⟨[], sockfd, results, masks, 0, []⟩

def sendItem (item : SendItem) (w : Wire) : Bool × Wire :=
  sendFrame (if item.isBinary then 0x2 else 0x1) item.data w

/-- The end of `threadFunc`: the Close frame, then `::close`. -/
def closeSocket (w : Wire) : Wire :=
  if 0 ≤ w.sockfd then { (sendFrame 0x8 [] w).2 with sockfd := -1 } else w

def step (s : SendSide) : SendAct → SendSide
  | .sendBinary state data =>
    { s with queue := s.queue ++ (sendBinary state data s.queue.length).toList }
  | .sendMessage text =>
    { s with queue := s.queue ++ (sendMessage text s.queue.length).toList }
  | .drain =>
    let out := drainSendQueue sendItem s.queue s.wire
    ⟨out.1, out.2⟩
  | .pong payload => { s with wire := (sendFrame 0xA payload s.wire).2 }
  | .ping => { s with wire := (sendFrame 0x9 [] s.wire).2 }
  | .close => { s with wire := closeSocket s.wire }

def after (s : SendSide) (acts : List SendAct) : SendSide := acts.foldl step s

theorem start_rests (sockfd : Int) (results : Nat → WriteResult) (masks : Nat → MaskKey) :
    (start sockfd results masks).wire.Rests :=
  ⟨wellLogged_nil, by simp [start], by simp [start]⟩

theorem step_rests {s : SendSide} (h : s.wire.Rests) (a : SendAct) : (s.step a).wire.Rests := by
  cases a with
  | sendBinary state data => exact h
  | sendMessage text => exact h
  | drain => exact drainLoop_invariant (fun _ _ hw => sendFrame_rests hw) s.queue 0 s.wire h
  | pong payload => exact sendFrame_rests h
  | ping => exact sendFrame_rests h
  | close =>
    show (closeSocket s.wire).Rests
    unfold closeSocket
    split
    · obtain ⟨hlog, hcalls, hsettled⟩ := @sendFrame_rests 0x8 [] s.wire h
      exact ⟨hlog, hcalls, hsettled⟩
    · exact h

theorem after_rests {s : SendSide} (h : s.wire.Rests) (acts : List SendAct) :
    (s.after acts).wire.Rests := by
  induction acts generalizing s with
  | nil => exact h
  | cons a acts ih => exact ih (step_rests h a)

end SendSide

/-- Over every run and all answers of the socket: what it has accepted is whole frames
and a prefix of one at every moment, exactly when it never goes on accepting after it
refused the tail of a frame. -/
theorem sendSide_intact_iff (sockfd : Int) (results : Nat → WriteResult) (masks : Nat → MaskKey)
    (acts : List SendAct) :
    (∀ moment, moment <+: ((SendSide.start sockfd results masks).after acts).wire.log →
        Intact moment) ↔
      NoLostTail ((SendSide.start sockfd results masks).after acts).wire.log := by
  have h := SendSide.after_rests (SendSide.start_rests sockfd results masks) acts
  constructor
  · intro hi
    exact noLostTail_of_intact h.logged (hi _ (List.prefix_refl _))
  · exact intact_of_noLostTail h.logged

/-- Three of seven bytes, then a full socket buffer for one call: the second frame goes
out behind the stump of the first. -/
theorem sendSide_splits_frame :
    ¬Intact ((SendSide.start 5
      (fun k => if k = 0 then .wrote 3 else if k = 1 then .again else .wrote 100)
      (fun _ => ⟨0, 0, 0, 0⟩)).after
        [.sendBinary .opened [7], .sendBinary .opened [8], .drain]).wire.log := by
  have h7 : encodeFrame 2 ⟨0, 0, 0, 0⟩ [7] = [130, 129, 0, 0, 0, 0, 7] := by decide
  have h8 : encodeFrame 2 ⟨0, 0, 0, 0⟩ [8] = [130, 129, 0, 0, 0, 0, 8] := by decide
  intro hi
  have hc := hi.continues
  simp [SendSide.start, SendSide.after, SendSide.step, sendBinary, unlessFull, maxSendQueue,
    drainSendQueue, drainLoop, SendSide.sendItem, sendFrame, h7, h8, writeLoop, Wire.answer,
    Wire.record, accepted, Continues] at hc

end ModAudioStream
