import ModAudioStream.Runs
import Mathlib.Logic.Function.Basic

namespace ModAudioStream

/-- The calls that reach the wrapper in `pAudioStreamer`: a stop command, the CLOSE callback,
a send_text command and the READ callback with `stream_frame`. -/
inductive WrapperOp where
  | stop
  | closeCallback
  | sendText
  | readCallback
deriving DecidableEq, Repr

/-- Where a call is; its next step is the one named. The steps from `testStarted` to
`destroyMutex` are those of `stream_session_cleanup`, the last ones those of the readers. -/
inductive WrapperPc where
  | closeRequested
  | readRequested
  | readStarted
  | fetchBug
  | lock
  | trylock
  | testStarted
  | setStarted
  | clearPrivate
  | take
  | clearWrapper
  | copyTaken
  | unlockClaimed
  | removeBug
  | deleteWrapper
  | disconnect
  | destroyMutex
  | testWrapper
  | copyWrapper
  | unlock
deriving DecidableEq, Repr

namespace WrapperPc

/-- Between the lock and the unlock. -/
def inside : WrapperPc → Bool
  | .testStarted => true
  | .setStarted => true
  | .clearPrivate => true
  | .take => true
  | .clearWrapper => true
  | .copyTaken => true
  | .unlockClaimed => true
  | .testWrapper => true
  | .copyWrapper => true
  | .unlock => true
  | _ => false

/-- In `stream_session_cleanup`, after it has set `cleanup_started`. -/
def body : WrapperPc → Bool
  | .clearPrivate => true
  | .take => true
  | .clearWrapper => true
  | .copyTaken => true
  | .unlockClaimed => true
  | .removeBug => true
  | .deleteWrapper => true
  | .disconnect => true
  | .destroyMutex => true
  | _ => false

/-- The call still finds the wrapper in `pAudioStreamer`. -/
def published : WrapperPc → Bool
  | .clearPrivate => true
  | .take => true
  | .clearWrapper => true
  | .copyWrapper => true
  | _ => false

/-- The call has taken the wrapper out and not deleted it yet. -/
def taken : WrapperPc → Bool
  | .copyTaken => true
  | .unlockClaimed => true
  | .removeBug => true
  | .deleteWrapper => true
  | _ => false

end WrapperPc

/-- A call on the stack of its thread, with the local variables of `stream_session_cleanup`. -/
structure WrapperCall where
  op : WrapperOp
  pc : WrapperPc
  channelIsClosing : Bool
  spWrap : Bool
  streamer : Bool
deriving DecidableEq, Repr

namespace WrapperCall

def start (op : WrapperOp) : WrapperCall :=
  match op with
  | .stop => ⟨op, .fetchBug, false, false, false⟩
  | .closeCallback => ⟨op, .closeRequested, false, false, false⟩
  | .sendText => ⟨op, .fetchBug, false, false, false⟩
  | .readCallback => ⟨op, .readRequested, false, false, false⟩

def goto (f : WrapperCall) (pc : WrapperPc) : WrapperCall := { f with pc := pc }

end WrapperCall

/-- What the threads share. `bug` is the channel private. `deletions`, `staleCopies` and
`bodies` only record the run: how often the wrapper was deleted, how often it was copied after
that, and how often `cleanup_started` was set. -/
structure WrapperShared where
  bug : Bool
  closeRequested : Bool
  cleanupStarted : Bool
  pAudioStreamer : Bool
  owner : Option Nat
  depth : Nat
  destroyed : Bool
  deletions : Nat
  staleCopies : Nat
  bodies : Nat
deriving DecidableEq, Repr

/-- What the system does in a step: whether a destroyed mutex lets a thread pass, whether the
removal of the bug calls back, and whether the audio is paused. -/
structure WrapperEnv where
  passes : Bool
  callsBack : Bool
  audioPaused : Bool

namespace WrapperShared

def fresh : WrapperShared := ⟨true, false, false, true, none, 0, false, 0, 0, 0⟩

/-- The nested mutex, when it lets thread `k` pass. -/
def lock (sh : WrapperShared) (k : Nat) (env : WrapperEnv) : Option WrapperShared :=
  if sh.destroyed then if env.passes then some sh else none
  else if sh.owner = none ∨ sh.owner = some k then
    some { sh with owner := some k, depth := sh.depth + 1 }
  else none

def unlock (sh : WrapperShared) : WrapperShared :=
  if sh.destroyed then sh
  else if sh.depth ≤ 1 then { sh with owner := none, depth := 0 }
  else { sh with depth := sh.depth - 1 }

def copy (sh : WrapperShared) : WrapperShared :=
  if 0 < sh.deletions then { sh with staleCopies := sh.staleCopies + 1 } else sh

/-- The step of the call `f` on top of the stack of thread `k`, and what replaces `f` there:
nothing once it has returned, and the callback above it while that runs. -/
def call (sh : WrapperShared) (k : Nat) (f : WrapperCall) (env : WrapperEnv) :
    WrapperShared × List WrapperCall :=
  match f.pc with
  | .closeRequested =>
    (sh, [{ f with channelIsClosing := !sh.closeRequested, pc := .fetchBug }])
  | .readRequested => (sh, if sh.closeRequested then [] else [f.goto .readStarted])
  | .readStarted =>
    (sh, if env.audioPaused || sh.cleanupStarted then [] else [f.goto .trylock])
  | .fetchBug => (sh, if sh.bug then [f.goto .lock] else [])
  | .lock =>
    match sh.lock k env with
    | some sh' => (sh', [f.goto (if f.op = .sendText then .testWrapper else .testStarted)])
    | none => (sh, [f])
  | .trylock =>
    match sh.lock k env with
    | some sh' => (sh', [f.goto .testWrapper])
    | none => (sh, [])
  | .testStarted => (sh, [f.goto (if sh.cleanupStarted then .unlock else .setStarted)])
  | .setStarted =>
    ({ sh with cleanupStarted := true, bodies := sh.bodies + 1 }, [f.goto .clearPrivate])
  | .clearPrivate => ({ sh with bug := false }, [f.goto .take])
  | .take => (sh, [{ f with spWrap := sh.pAudioStreamer, pc := .clearWrapper }])
  | .clearWrapper => ({ sh with pAudioStreamer := false }, [f.goto .copyTaken])
  | .copyTaken =>
    if f.spWrap then (sh.copy, [{ f with streamer := true, pc := .unlockClaimed }])
    else (sh, [f.goto .unlockClaimed])
  | .unlockClaimed =>
    (sh.unlock, [f.goto (if f.channelIsClosing then .deleteWrapper else .removeBug)])
  | .removeBug =>
    (sh, if env.callsBack then [.start .closeCallback, f.goto .deleteWrapper]
      else [f.goto .deleteWrapper])
  | .deleteWrapper =>
    if f.spWrap then
      ({ sh with deletions := sh.deletions + 1 }, [{ f with spWrap := false, pc := .disconnect }])
    else (sh, [f.goto .disconnect])
  | .disconnect => (sh, [f.goto .destroyMutex])
  | .destroyMutex => ({ sh with destroyed := true }, [])
  | .testWrapper => (sh, [f.goto (if sh.pAudioStreamer then .copyWrapper else .unlock)])
  | .copyWrapper => (sh.copy, [{ f with streamer := true, pc := .unlock }])
  | .unlock => (sh.unlock, [])

end WrapperShared

/-- A session after a successful start, with one call on each of any number of threads. -/
structure WrapperRun where
  shared : WrapperShared
  threads : Nat → List WrapperCall

/-- `requestClose` sets `close_requested`, as `media_bug_close` does before it closes the bug. -/
inductive WrapperAct where
  | thread (k : Nat) (env : WrapperEnv)
  | requestClose

namespace WrapperRun

def fresh (ops : Nat → WrapperOp) : WrapperRun := ⟨.fresh, fun k => [.start (ops k)]⟩

def step (s : WrapperRun) (a : WrapperAct) : WrapperRun :=
  match a with
  | .requestClose => { s with shared := { s.shared with closeRequested := true } }
  | .thread k env =>
    match s.threads k with
    | [] => s
    | f :: rest =>
      let out := s.shared.call k f env
      ⟨out.1, Function.update s.threads k (out.2 ++ rest)⟩

end WrapperRun

def WrapperStep (s : WrapperRun) (a : WrapperAct) (t : WrapperRun) : Prop := s.step a = t

end ModAudioStream
