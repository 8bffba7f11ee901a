import ModAudioStream.Runs
import Mathlib.Logic.Function.Basic

namespace ModAudioStream

/-- Where a start command is in `start_capture`; its next step is the one named. `init` is
what `stream_data_init` does once it has created the streamer, `destroy` is
`stream_session_destroy`. -/
inductive StartCommandPc where
  | check
  | preAnswer
  | create
  | init
  | addBug
  | setPrivate
  | destroy
  | done
  | failed
deriving DecidableEq, Repr

/-- Where a stop command is in `stream_session_cleanup`, with the bug it is at. The removal
of the bug calls back, from `close` on, to a cleanup of what is then the channel private. -/
inductive StopCommandPc where
  | fetch
  | lock (i : Nat)
  | removeBug (i : Nat)
  | close (i : Nat)
  | closeLock (i j : Nat)
  | closeRelease (i j : Nat)
  | release (i : Nat)
  | returned
deriving DecidableEq, Repr

/-- A session with any number of start and stop commands. The start command `i` makes the
bug and the streamer `i`; `bug` is the channel private. -/
structure Streams where
  bug : Option Nat
  attached : Nat → Bool
  live : Nat → Bool
  cleanupStarted : Nat → Bool
  starts : Nat → StartCommandPc
  stops : Nat → StopCommandPc

inductive StreamsAct where
  | start (i : Nat) (ok : Bool)
  | stop (k : Nat)
deriving DecidableEq, Repr

namespace Streams

def fresh : Streams :=
  ⟨none, fun _ => false, fun _ => false, fun _ => false, fun _ => .check, fun _ => .fetch⟩

def startTo (s : Streams) (i : Nat) (pc : StartCommandPc) : Streams :=
  { s with starts := Function.update s.starts i pc }

def stopTo (s : Streams) (k : Nat) (pc : StopCommandPc) : Streams :=
  { s with stops := Function.update s.stops k pc }

/-- The streamer is disconnected and its last owner gone. -/
def free (s : Streams) (i : Nat) : Streams := { s with live := Function.update s.live i false }

/-- What the first cleanup of a bug does under the mutex. -/
def claim (s : Streams) (i : Nat) : Streams :=
  { s with cleanupStarted := Function.update s.cleanupStarted i true, bug := none }

def startStep (s : Streams) (i : Nat) (ok : Bool) : Streams :=
  match s.starts i with
  | .check => s.startTo i (if s.bug = none then .preAnswer else .failed)
  | .preAnswer => s.startTo i (if ok then .create else .failed)
  | .create => { s with live := Function.update s.live i true }.startTo i .init
  | .init => s.startTo i (if ok then .addBug else .failed)
  | .addBug =>
    if ok then { s with attached := Function.update s.attached i true }.startTo i .setPrivate
    else s.startTo i .destroy
  | .setPrivate => { s with bug := some i }.startTo i .done
  | .destroy => (s.free i).startTo i .failed
  | .done => s
  | .failed => s

def stopStep (s : Streams) (k : Nat) : Streams :=
  match s.stops k with
  | .fetch =>
    match s.bug with
    | some i => s.stopTo k (.lock i)
    | none => s.stopTo k .returned
  | .lock i =>
    if s.cleanupStarted i then s.stopTo k .returned else (s.claim i).stopTo k (.removeBug i)
  | .removeBug i =>
    { s with attached := Function.update s.attached i false }.stopTo k (.close i)
  | .close i =>
    match s.bug with
    | some j => s.stopTo k (.closeLock i j)
    | none => s.stopTo k (.release i)
  | .closeLock i j =>
    if s.cleanupStarted j then s.stopTo k (.release i)
    else (s.claim j).stopTo k (.closeRelease i j)
  | .closeRelease i j => (s.free j).stopTo k (.release i)
  | .release i => (s.free i).stopTo k .returned
  | .returned => s

def step (s : Streams) : StreamsAct → Streams
  | .start i ok => s.startStep i ok
  | .stop k => s.stopStep k

end Streams

def StreamsStep (s : Streams) (a : StreamsAct) (t : Streams) : Prop := s.step a = t

end ModAudioStream
