import ModAudioStream.Runs
import Mathlib.Data.List.Infix

namespace ModAudioStream

/-- What a player puts out: a frame, with its number since the queue was last empty and how many
are left, or the end of the queue after so many frames. -/
inductive PlayerEvent (α : Type*) where
  | played (frame : α) (seq left : Nat)
  | completed (total : Nat)

/-- A queue of frames that are played one at a time. `log` is everything put out, `arrived` and
`out` are the frames that came and went since the queue was last cleared. -/
structure FramePlayer (α : Type*) where
  queue : List α
  seq : Nat
  closed : Bool
  log : List (PlayerEvent α)
  arrived : List α
  out : List α

inductive PlayerAct (α : Type*) where
  | arrive (frames : List α)
  | tick
  | clear
  | close
  | wait

namespace FramePlayer

variable {α : Type*}

def start : FramePlayer α := ⟨[], 0, false, [], [], []⟩

def play (p : FramePlayer α) (frame : α) (rest : List α) : FramePlayer α :=
  { p with
    queue := rest
    seq := if rest.isEmpty then 0 else p.seq + 1
    log := p.log ++ .played frame (p.seq + 1) rest.length ::
      if rest.isEmpty then [.completed (p.seq + 1)] else []
    out := p.out ++ [frame] }

def step (p : FramePlayer α) (a : PlayerAct α) : FramePlayer α :=
  if p.closed then p
  else
    match a with
    | .arrive frames => { p with queue := p.queue ++ frames, arrived := p.arrived ++ frames }
    | .tick =>
      match p.queue with
      | [] => p
      | frame :: rest => p.play frame rest
    | .clear =>
      { p with queue := [], seq := 0, log := p.log ++ [.completed 0], arrived := [], out := [] }
    | .close => { p with closed := true }
    | .wait => p

/-- What playing a whole queue puts out. -/
def countdown (seq : Nat) : List α → List (PlayerEvent α)
  | [] => []
  | frame :: rest =>
    .played frame (seq + 1) rest.length ::
      if rest.isEmpty then [.completed (seq + 1)] else countdown (seq + 1) rest

/-- The frames, if the events number them 1, 2, ..., k up to every end of the queue, `seq` of them
before the first event. -/
def NumberedFrom : Nat → List (PlayerEvent α) → Prop
  | _, [] => True
  | seq, .played _ n _ :: rest => n = seq + 1 ∧ NumberedFrom n rest
  | seq, .completed total :: rest => (total = seq ∨ total = 0) ∧ NumberedFrom 0 rest

/-- How many frames the events have played since the last end of the queue. -/
def playedAfter : Nat → List (PlayerEvent α) → Nat
  | seq, [] => seq
  | _, .played _ n _ :: rest => playedAfter n rest
  | _, .completed _ :: rest => playedAfter 0 rest

variable {p : FramePlayer α}

theorem step_closed (h : p.closed = true) (a : PlayerAct α) : p.step a = p := if_pos h

theorem step_tick (h : p.closed = false) {frame : α} {rest : List α}
    (hq : p.queue = frame :: rest) : p.step .tick = p.play frame rest := by
  simp only [step, h, hq, Bool.false_eq_true, if_false]

theorem numberedFrom_append (seq : Nat) (events more : List (PlayerEvent α)) :
    NumberedFrom seq (events ++ more) ↔
      NumberedFrom seq events ∧ NumberedFrom (playedAfter seq events) more := by
  induction events generalizing seq with
  | nil => simp [NumberedFrom, playedAfter]
  | cons event events ih =>
    cases event with
    | played frame n left =>
      rw [List.cons_append, NumberedFrom, NumberedFrom, playedAfter, ih, and_assoc]
    | completed total =>
      rw [List.cons_append, NumberedFrom, NumberedFrom, playedAfter, ih, and_assoc]

theorem playedAfter_append (seq : Nat) (events more : List (PlayerEvent α)) :
    playedAfter seq (events ++ more) = playedAfter (playedAfter seq events) more := by
  induction events generalizing seq with
  | nil => rfl
  | cons event events ih =>
    cases event with
    | played frame n left => exact ih n
    | completed total => exact ih 0

/-- What holds between any two acts: nothing is lost or reordered, and the numbers follow one
another. -/
structure Sound (p : FramePlayer α) : Prop where
  frames : p.out ++ p.queue = p.arrived
  numbered : NumberedFrom 0 p.log
  seq : playedAfter 0 p.log = p.seq
  idle : p.queue = [] → p.seq = 0

theorem Sound.start : (start : FramePlayer α).Sound := ⟨rfl, trivial, rfl, fun _ => rfl⟩

theorem Sound.play (h : p.Sound) {frame : α} {rest : List α} (hq : p.queue = frame :: rest) :
    (p.play frame rest).Sound := by
  have hframes := h.frames
  rw [hq] at hframes
  cases rest with
  | nil =>
    refine ⟨?_, ?_, ?_, fun _ => rfl⟩
    · simpa [FramePlayer.play] using hframes
    · simp only [FramePlayer.play, numberedFrom_append, h.seq]
      exact ⟨h.numbered, rfl, Or.inl rfl, trivial⟩
    · simp only [FramePlayer.play, playedAfter_append, h.seq]
      rfl
  | cons next rest =>
    refine ⟨?_, ?_, ?_, fun hnil => absurd hnil (List.cons_ne_nil _ _)⟩
    · simpa [FramePlayer.play] using hframes
    · simp only [FramePlayer.play, numberedFrom_append, h.seq]
      exact ⟨h.numbered, rfl, trivial⟩
    · simp only [FramePlayer.play, playedAfter_append, h.seq]
      rfl

theorem Sound.step (h : p.Sound) (a : PlayerAct α) : (p.step a).Sound := by
  unfold FramePlayer.step
  split
  next => exact h
  next =>
    cases a with
    | arrive frames =>
      refine ⟨?_, h.numbered, h.seq, ?_⟩
      · show p.out ++ (p.queue ++ frames) = p.arrived ++ frames
        rw [← List.append_assoc, h.frames]
      · intro hnil
        exact h.idle (List.append_eq_nil_iff.mp hnil).1
    | tick =>
      dsimp only
      split
      next => exact h
      next frame rest hq => exact h.play hq
    | clear =>
      refine ⟨rfl, ?_, ?_, fun _ => rfl⟩
      · simp only [numberedFrom_append]
        exact ⟨h.numbered, Or.inr rfl, trivial⟩
      · simp only [playedAfter_append]
        rfl
    | close => exact ⟨h.frames, h.numbered, h.seq, h.idle⟩
    | wait => exact h

/-- As many ticks as there are frames play the queue out, and further ones do nothing. -/
theorem ticks_play_out (hclosed : p.closed = false) {k : Nat} (hk : p.queue.length ≤ k) :
    (List.replicate k .tick).foldl FramePlayer.step p =
      { p with
        queue := []
        seq := if p.queue.isEmpty then p.seq else 0
        log := p.log ++ countdown p.seq p.queue
        out := p.out ++ p.queue } := by
  induction k generalizing p with
  | zero =>
    have hnil : p.queue = [] := List.eq_nil_of_length_eq_zero (by omega)
    simp only [List.replicate, List.foldl_nil, hnil, countdown, List.append_nil, List.isEmpty_nil,
      if_true]
    rw [← hnil]
  | succ k ih =>
    rw [List.replicate_succ, List.foldl_cons]
    cases hq : p.queue with
    | nil =>
      have hsame : p.step .tick = p := by
        simp only [FramePlayer.step, hclosed, hq, Bool.false_eq_true, if_false]
      rw [hsame, ih hclosed (by rw [hq]; exact Nat.zero_le k)]
      simp only [hq]
    | cons frame rest =>
      rw [hq, List.length_cons] at hk
      rw [step_tick hclosed hq, ih (p := p.play frame rest) hclosed (by simp [play]; omega)]
      cases rest with
      | nil => simp [play, countdown]
      | cons next rest => simp [play, countdown]

end FramePlayer

end ModAudioStream
