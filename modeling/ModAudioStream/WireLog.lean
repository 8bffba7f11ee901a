import ModAudioStream.SendFrame
import ModAudioStream.SendQueue
import Mathlib.Data.List.Chain

namespace ModAudioStream

def IsEncoded (frame : List UInt8) : Prop :=
  ∃ opcode mask payload, frame = encodeFrame opcode mask payload

/-- How a write follows the one before it in the log: it goes on where that one
stopped, or a later call starts a frame after that one failed or finished. -/
def NextWrite (p e : Write) : Prop :=
  (e.call = p.call ∧ e.frame = p.frame ∧ e.offset = p.offset + p.taken ∧ 0 < p.taken) ∨
    (p.call < e.call ∧ e.offset = 0 ∧ (p.taken = 0 ∨ p.offset + p.taken = p.frame.length))

structure Write.Sound (wr : Write) : Prop where
  encoded : IsEncoded wr.frame
  pending : wr.offset < wr.frame.length
  fits : wr.offset + wr.taken ≤ wr.frame.length

/-- What holds of a log at every moment, also in the middle of a call. -/
structure WellLogged (log : List Write) : Prop where
  chain : log.IsChain NextWrite
  starts : ∀ e ∈ log.head?, e.offset = 0
  sound : ∀ e ∈ log, e.Sound

theorem wellLogged_nil : WellLogged [] := ⟨.nil, by simp, by simp⟩

theorem WellLogged.upTo {log moment : List Write} (h : WellLogged log) (hm : moment <+: log) :
    WellLogged moment := by
  have hchain : moment.IsChain NextWrite := List.IsChain.prefix h.chain hm
  refine ⟨hchain, ?_, fun e he => h.sound e (hm.subset he)⟩
  intro e he
  obtain ⟨rest, rfl⟩ := hm
  refine h.starts e ?_
  cases moment with
  | nil => simp at he
  | cons a moment => exact he

theorem WellLogged.snoc {log : List Write} {e : Write} (h : WellLogged log) (he : e.Sound)
    (hstart : log = [] → e.offset = 0) (hnext : ∀ p ∈ log.getLast?, NextWrite p e) :
    WellLogged (log ++ [e]) := by
  refine ⟨?_, ?_, ?_⟩
  · refine h.chain.append (.singleton e) fun p hp x hx => ?_
    have hxe : e = x := by simpa using hx
    exact hxe ▸ hnext p hp
  · intro x hx
    cases log with
    | nil =>
      have hxe : e = x := by simpa using hx
      exact hxe ▸ hstart rfl
    | cons a log => exact h.starts x hx
  · intro x hx
    rcases List.mem_append.mp hx with hx | hx
    · exact h.sound x hx
    · exact List.mem_singleton.mp hx ▸ he

/-- Between two calls of `sendFrame`. -/
structure Wire.Rests (w : Wire) : Prop where
  logged : WellLogged w.log
  calls : ∀ e ∈ w.log, e.call ≤ w.calls
  settled : ∀ p ∈ w.log.getLast?, p.taken = 0 ∨ p.offset + p.taken = p.frame.length

/-- In a call of `sendFrame`, before the write at `offset`. -/
structure Wire.Writes (w : Wire) (frame : List UInt8) (offset : Nat) : Prop where
  logged : WellLogged w.log
  calls : ∀ e ∈ w.log, e.call ≤ w.calls
  encoded : IsEncoded frame
  le_length : offset ≤ frame.length
  start : w.log = [] → offset = 0
  next : ∀ p ∈ w.log.getLast?, NextWrite p ⟨w.calls, frame, offset, 0⟩

theorem Wire.Writes.logs {w : Wire} {frame : List UInt8} {offset taken : Nat}
    (h : w.Writes frame offset) (hlt : offset < frame.length)
    (hfit : offset + taken ≤ frame.length) :
    WellLogged (w.record frame offset taken).log ∧
      ∀ e ∈ (w.record frame offset taken).log, e.call ≤ w.calls := by
  constructor
  · exact h.logged.snoc ⟨h.encoded, hlt, hfit⟩ h.start h.next
  · intro e he
    rcases List.mem_append.mp he with he | he
    · exact h.calls e he
    · rw [List.mem_singleton.mp he]

theorem Wire.Writes.fails {w : Wire} {frame : List UInt8} {offset : Nat}
    (h : w.Writes frame offset) (hlt : offset < frame.length) :
    (w.record frame offset 0).Rests := by
  obtain ⟨hlog, hcalls⟩ := h.logs hlt (show offset + 0 ≤ frame.length from hlt.le)
  refine ⟨hlog, hcalls, fun p hp => ?_⟩
  simp only [Wire.record, List.getLast?_concat, Option.mem_def, Option.some.injEq] at hp
  exact Or.inl (hp ▸ rfl)

theorem Wire.Writes.takes {w : Wire} {frame : List UInt8} {offset taken : Nat}
    (h : w.Writes frame offset) (hlt : offset < frame.length) (ht : 0 < taken)
    (hfit : offset + taken ≤ frame.length) :
    (w.record frame offset taken).Writes frame (offset + taken) := by
  obtain ⟨hlog, hcalls⟩ := h.logs hlt hfit
  refine ⟨hlog, hcalls, h.encoded, hfit, fun hnil => ?_, fun p hp => ?_⟩
  · simp [Wire.record] at hnil
  · simp only [Wire.record, List.getLast?_concat, Option.mem_def, Option.some.injEq] at hp
    exact Or.inl (hp ▸ ⟨rfl, rfl, rfl, ht⟩)

theorem Wire.Writes.finished {w : Wire} {frame : List UInt8} {offset : Nat}
    (h : w.Writes frame offset) (hge : ¬offset < frame.length) : w.Rests := by
  refine ⟨h.logged, h.calls, fun p hp => ?_⟩
  rcases h.next p hp with ⟨_, hframe, hoff, _⟩ | ⟨_, _, hdone⟩
  · have hf := (h.logged.sound p (List.mem_of_getLast? hp)).fits
    refine Or.inr (Nat.le_antisymm hf ?_)
    rw [← hoff, ← show frame = p.frame from hframe]
    exact Nat.le_of_not_lt hge
  · exact hdone

theorem writeLoop_rests {w : Wire} {frame : List UInt8} {offset : Nat}
    (h : w.Writes frame offset) : (writeLoop frame offset w).2.Rests := by
  fun_induction writeLoop frame offset w with
  | case1 offset w hlt n _ taken ht ih =>
    exact ih (h.takes hlt ht (by omega))
  | case2 offset w hlt => exact h.fails hlt
  | case3 offset w hlt => exact h.fails hlt
  | case4 offset w hlt => exact h.fails hlt
  | case5 offset w hge => exact h.finished hge

theorem sendFrame_rests {opcode : UInt8} {payload : List UInt8} {w : Wire} (h : w.Rests) :
    (sendFrame opcode payload w).2.Rests := by
  unfold sendFrame
  split
  · exact h
  · refine writeLoop_rests ⟨h.logged, ?_, ⟨opcode, w.masks w.calls, payload, rfl⟩,
      Nat.zero_le _, fun _ => rfl, ?_⟩
    · exact fun e he => Nat.le_succ_of_le (h.calls e he)
    · intro p hp
      exact Or.inr ⟨Nat.lt_succ_of_le (h.calls p (List.mem_of_getLast? hp)), rfl, h.settled p hp⟩

end ModAudioStream
