import ModAudioStream.Runs
import Mathlib.Logic.Function.Basic

namespace ModAudioStream

/-- The operations that lock `tech_pvt->mutex`: `stream_session_send_text`,
`stream_session_break`, and `stream_session_cleanup` from a stop command and from the CLOSE
callback of the bug, which is an operation of its own also when a stop removes the bug. -/
inductive SessionOp where
  | sendText
  | sessionBreak
  | stop
  | closeCallback (closeRequested : Bool)
deriving DecidableEq, Repr

def SessionOp.channelIsClosing : SessionOp → Bool
  | .closeCallback closeRequested => !closeRequested
  | _ => false

/-- Where an operation is; its next step is the one named. `unlockClaimed` is the unlock of
the cleanup that has claimed the stream, `undefined` follows a use of a destroyed mutex. -/
inductive SessionOpPc where
  | fetch
  | lock
  | critical
  | unlock (status : Bool)
  | unlockClaimed
  | removeBug
  | disconnect
  | destroyMutex
  | clearMutex
  | returned (status : Bool)
  | undefined
deriving DecidableEq, Repr

namespace SessionOpPc

/-- The operation has fetched `tech_pvt` and not yet unlocked its mutex. -/
def inside : SessionOpPc → Bool
  | .lock => true
  | .critical => true
  | .unlock _ => true
  | .unlockClaimed => true
  | _ => false

/-- The next step locks or unlocks the mutex. -/
def callsMutex : SessionOpPc → Bool
  | .lock => true
  | .unlock _ => true
  | .unlockClaimed => true
  | _ => false

/-- The cleanup has claimed the stream. -/
def claimed : SessionOpPc → Bool
  | .unlockClaimed => true
  | .removeBug => true
  | .disconnect => true
  | .destroyMutex => true
  | .clearMutex => true
  | _ => false

end SessionOpPc

/-- A session with a stream and any number of operations. `bug` is whether the channel
private is set, `wrapper` is `pAudioStreamer`, `mutex` whether `tech_pvt->mutex` is set. -/
structure TechPvt where
  ops : Nat → SessionOp
  bug : Bool
  wrapper : Bool
  cleanupStarted : Bool
  mutex : Bool
  owner : Option Nat
  destroyed : Bool
  pcs : Nat → SessionOpPc

namespace TechPvt

def fresh (ops : Nat → SessionOp) : TechPvt :=
  ⟨ops, true, true, false, true, none, false, fun _ => .fetch⟩

def opTo (s : TechPvt) (k : Nat) (pc : SessionOpPc) : TechPvt :=
  { s with pcs := Function.update s.pcs k pc }

def lockMutex (s : TechPvt) (k : Nat) : TechPvt :=
  if s.destroyed then s.opTo k .undefined
  else if s.owner = none then { s with owner := some k }.opTo k .critical
  else s

def unlockMutex (s : TechPvt) (k : Nat) (pc : SessionOpPc) : TechPvt :=
  if s.destroyed then s.opTo k .undefined else { s with owner := none }.opTo k pc

/-- What `stream_session_cleanup` does under the mutex. -/
def cleanupCritical (s : TechPvt) (k : Nat) : TechPvt :=
  if s.cleanupStarted then s.opTo k (.unlock true)
  else { s with cleanupStarted := true, bug := false, wrapper := false }.opTo k .unlockClaimed

def step (s : TechPvt) (k : Nat) : TechPvt :=
  match s.pcs k with
  | .fetch => s.opTo k (if s.bug then .lock else .returned false)
  | .lock => s.lockMutex k
  | .critical =>
    match s.ops k with
    | .sendText => s.opTo k (.unlock s.wrapper)
    | .sessionBreak => s.opTo k (.unlock true)
    | .stop => s.cleanupCritical k
    | .closeCallback _ => s.cleanupCritical k
  | .unlock status => s.unlockMutex k (.returned status)
  | .unlockClaimed =>
    s.unlockMutex k (if (s.ops k).channelIsClosing then .disconnect else .removeBug)
  | .removeBug => s.opTo k .disconnect
  | .disconnect => s.opTo k .destroyMutex
  | .destroyMutex =>
    if s.mutex then { s with destroyed := true }.opTo k .clearMutex
    else s.opTo k (.returned true)
  | .clearMutex => { s with mutex := false }.opTo k (.returned true)
  | .returned _ => s
  | .undefined => s

/-- The step of `k` locks or unlocks the mutex, which has been destroyed. -/
def UsesDestroyed (s : TechPvt) (k : Nat) : Prop :=
  s.destroyed = true ∧ (s.pcs k).callsMutex = true

/-- The step of `k` destroys the mutex while another operation has still to unlock it. -/
def Strands (s : TechPvt) (k : Nat) : Prop :=
  s.pcs k = .destroyMutex ∧ s.mutex = true ∧ ∃ k', (s.pcs k').inside = true

/-- What holds as long as no cleanup strands another operation. -/
structure Guarded (s : TechPvt) : Prop where
  cleared : ∀ k, (s.pcs k).claimed = true → s.bug = false
  outside : s.destroyed = true → s.bug = false ∧ ∀ k, (s.pcs k).inside = false

theorem guarded_fresh (ops : Nat → SessionOp) : (fresh ops).Guarded :=
  ⟨fun _ => nofun, nofun⟩

theorem guarded_opTo {s : TechPvt} (h : s.Guarded) {k : Nat} {pc : SessionOpPc}
    (hclaimed : pc.claimed = true → s.bug = false)
    (hinside : pc.inside = true → s.destroyed = false) : (s.opTo k pc).Guarded := by
  constructor
  · intro k' hk'
    by_cases hk : k' = k
    · subst hk
      exact hclaimed (by simpa [opTo] using hk')
    · exact h.cleared k' (by simpa [opTo, hk] using hk')
  · intro hd
    obtain ⟨hbug, hout⟩ := h.outside hd
    refine ⟨hbug, fun k' => ?_⟩
    by_cases hk : k' = k
    · subst hk
      have hnot : s.destroyed = true := hd
      simpa [opTo, hnot] using hinside
    · simpa [opTo, hk] using hout k'

theorem guarded_owner {s : TechPvt} (h : s.Guarded) (owner : Option Nat) :
    ({ s with owner := owner } : TechPvt).Guarded :=
  ⟨h.cleared, h.outside⟩

/-- An operation between its fetch and its unlock sees the mutex before it is destroyed. -/
theorem alive_of_inside {s : TechPvt} (h : s.Guarded) {k : Nat} {pc : SessionOpPc}
    (hpc : s.pcs k = pc) (hin : pc.inside = true) : s.destroyed = false := by
  by_contra hd
  have hout := (h.outside (by simpa using hd)).2 k
  rw [hpc, hin] at hout
  cases hout

theorem cleared_at {s : TechPvt} (h : s.Guarded) {k : Nat} {pc : SessionOpPc}
    (hpc : s.pcs k = pc) (hc : pc.claimed = true) : s.bug = false :=
  h.cleared k (hpc ▸ hc)

theorem guarded_lockMutex {s : TechPvt} (h : s.Guarded) {k : Nat} (hpc : s.pcs k = .lock) :
    (s.lockMutex k).Guarded := by
  have hd := alive_of_inside h hpc rfl
  unfold lockMutex
  rw [if_neg (by simp [hd])]
  split
  · exact guarded_opTo (guarded_owner h _) nofun fun _ => hd
  · exact h

theorem guarded_unlockMutex {s : TechPvt} (h : s.Guarded) {k : Nat} {old pc : SessionOpPc}
    (hpc : s.pcs k = old) (hin : old.inside = true)
    (hclaimed : pc.claimed = true → s.bug = false) : (s.unlockMutex k pc).Guarded := by
  have hd := alive_of_inside h hpc hin
  unfold unlockMutex
  rw [if_neg (by simp [hd])]
  exact guarded_opTo (guarded_owner h _) hclaimed fun _ => hd

theorem guarded_cleanupCritical {s : TechPvt} (h : s.Guarded) {k : Nat}
    (hpc : s.pcs k = .critical) : (s.cleanupCritical k).Guarded := by
  have hd := alive_of_inside h hpc rfl
  unfold cleanupCritical
  split
  · exact guarded_opTo h nofun fun _ => hd
  · have hclear : ({ s with cleanupStarted := true, bug := false, wrapper := false } :
        TechPvt).Guarded :=
      ⟨fun _ _ => rfl, fun hd => ⟨rfl, (h.outside hd).2⟩⟩
    exact guarded_opTo hclear (fun _ => rfl) fun _ => hd

theorem guarded_step {s : TechPvt} (h : s.Guarded) {k : Nat} (hk : ¬s.Strands k) :
    (s.step k).Guarded := by
  unfold step
  split
  case h_1 =>
    cases hbug : s.bug
    · exact guarded_opTo h nofun nofun
    · refine guarded_opTo h nofun fun _ => ?_
      by_contra hd
      rw [(h.outside (by simpa using hd)).1] at hbug
      cases hbug
  case h_2 hpc => exact guarded_lockMutex h hpc
  case h_3 hpc =>
    have hd := alive_of_inside h hpc rfl
    cases s.ops k with
    | sendText => exact guarded_opTo h nofun fun _ => hd
    | sessionBreak => exact guarded_opTo h nofun fun _ => hd
    | stop => exact guarded_cleanupCritical h hpc
    | closeCallback closeRequested => exact guarded_cleanupCritical h hpc
  case h_4 hpc => exact guarded_unlockMutex h hpc rfl nofun
  case h_5 hpc =>
    have hbug := cleared_at h hpc rfl
    exact guarded_unlockMutex h hpc rfl fun _ => hbug
  case h_6 hpc => exact guarded_opTo h (fun _ => cleared_at h hpc rfl) nofun
  case h_7 hpc => exact guarded_opTo h (fun _ => cleared_at h hpc rfl) nofun
  case h_8 hpc =>
    have hbug := cleared_at h hpc rfl
    split
    case isTrue hmutex =>
      -- nobody is between fetch and unlock, and nobody can fetch any more
      have hout : ∀ k', (s.pcs k').inside = false := fun k' => by
        by_contra hin
        exact hk ⟨hpc, hmutex, k', by simpa using hin⟩
      have hgone : ({ s with destroyed := true } : TechPvt).Guarded :=
        ⟨h.cleared, fun _ => ⟨hbug, hout⟩⟩
      exact guarded_opTo hgone (fun _ => hbug) nofun
    case isFalse => exact guarded_opTo h nofun nofun
  case h_9 =>
    have hcleared : ({ s with mutex := false } : TechPvt).Guarded := ⟨h.cleared, h.outside⟩
    exact guarded_opTo hcleared nofun nofun
  case h_10 | h_11 => exact h

theorem not_uses_of_guarded {s : TechPvt} {k : Nat} (h : s.Guarded) : ¬s.UsesDestroyed k := by
  rintro ⟨hd, hk⟩
  have hout := (h.outside hd).2 k
  cases hpc : s.pcs k <;> rw [hpc] at hk hout <;> cases hk <;> cases hout

theorem critical_step {s : TechPvt} {k : Nat} (hk : s.pcs k = .critical) :
    (s.step k).destroyed = s.destroyed ∧ ((s.step k).pcs k).callsMutex = true := by
  unfold step
  rw [hk]
  cases s.ops k with
  | sendText => simp [opTo, SessionOpPc.callsMutex]
  | sessionBreak => simp [opTo, SessionOpPc.callsMutex]
  | stop =>
    simp only [cleanupCritical]
    split <;> simp [opTo, SessionOpPc.callsMutex]
  | closeCallback closeRequested =>
    simp only [cleanupCritical]
    split <;> simp [opTo, SessionOpPc.callsMutex]

/-- An operation that has still to unlock the destroyed mutex can go on to use it. -/
theorem stranded_uses {s : TechPvt} (hd : s.destroyed = true) {k : Nat}
    (hk : (s.pcs k).inside = true) :
    ∃ more, ¬Never (fun s k t => s.step k = t) UsesDestroyed s more := by
  by_cases hcalls : (s.pcs k).callsMutex = true
  · refine ⟨[k], fun hnever => ?_⟩
    exact (never_cons_iff.mp hnever).1 ⟨hd, hcalls⟩
  · have hpc : s.pcs k = .critical := by
      cases hpc : s.pcs k <;> simp_all [SessionOpPc.inside, SessionOpPc.callsMutex]
    obtain ⟨hd', hcalls'⟩ := critical_step hpc
    refine ⟨[k, k], fun hnever => ?_⟩
    have hrest := (never_cons_iff.mp hnever).2 _ rfl
    exact (never_cons_iff.mp hrest).1 ⟨hd'.trans hd, hcalls'⟩

theorem stranded_of_strands {s : TechPvt} {k : Nat} (h : s.Strands k) :
    (s.step k).destroyed = true ∧ ∃ k', ((s.step k).pcs k').inside = true := by
  obtain ⟨hpc, hmutex, k', hin⟩ := h
  have hne : k' ≠ k := by
    rintro rfl
    rw [hpc] at hin
    cases hin
  have hstep : s.step k = { s with destroyed := true }.opTo k .clearMutex := by
    simp [step, hpc, hmutex]
  rw [hstep]
  exact ⟨rfl, k', by simpa [opTo, hne] using hin⟩

end TechPvt

def TechPvtStep (s : TechPvt) (k : Nat) (t : TechPvt) : Prop := s.step k = t

/-- In every run in which no cleanup destroys the mutex while an operation is between its
fetch and its unlock, no destroyed mutex is locked or unlocked; after a cleanup that does, a
run can go on to a use of the destroyed mutex. -/
theorem session_mutex_outlives_operations (ops : Nat → SessionOp) (acts : List Nat) :
    (Never TechPvtStep TechPvt.Strands (.fresh ops) acts →
      Never TechPvtStep TechPvt.UsesDestroyed (.fresh ops) acts) ∧
    ∀ s k, TechPvt.Strands s k →
      ∃ more, ¬Never TechPvtStep TechPvt.UsesDestroyed s (k :: more) := by
  constructor
  · intro hnever
    have hguard : Always TechPvtStep TechPvt.Guarded (.fresh ops) acts := by
      refine always_of_kept ?_ (TechPvt.guarded_fresh ops) hnever
      rintro s k t hs hk rfl
      exact TechPvt.guarded_step hs hk
    exact never_of_always (fun s k => TechPvt.not_uses_of_guarded) hguard
  · intro s k hk
    obtain ⟨hd, k', hin⟩ := TechPvt.stranded_of_strands hk
    obtain ⟨more, hmore⟩ := TechPvt.stranded_uses hd hin
    refine ⟨more, fun h => hmore ?_⟩
    exact (never_cons_iff.mp h).2 _ rfl

/-- The operation `0` sends a text, and every other one is a stop command. -/
def sendTextAndStops : Nat → SessionOp
  | 0 => .sendText
  | _ => .stop

/-- A stop command runs to its end before `send_text` locks the mutex that it has found. -/
def stopsBeforeLock : List Nat := [0] ++ List.replicate 7 1 ++ [0]

theorem destroyed_mutex_is_locked :
    ¬Never TechPvtStep TechPvt.UsesDestroyed (.fresh sendTextAndStops) stopsBeforeLock := by
  intro h
  have hrun := run_foldl TechPvt.step (.fresh sendTextAndStops) ([0] ++ List.replicate 7 1)
  exact h _ 0 _ (List.prefix_refl _) hrun ⟨rfl, rfl⟩

end ModAudioStream
