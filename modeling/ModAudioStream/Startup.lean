import ModAudioStream.ClientStates
import ModAudioStream.SendQueue

namespace ModAudioStream

/-- The bytes of a C string, without its terminator. -/
structure CString where
  bytes : List UInt8
  noNul : 0 ∉ bytes

def maxMetadataLen : Nat := 8192

/-- `strncpy` into an array of `n` bytes, which is not terminated when `src` fills it. -/
def strncpy (src : CString) (n : Nat) : List UInt8 :=
  src.bytes.take n ++ List.replicate (n - src.bytes.length) 0

/-- The string that is read at an array; `beyond` is what memory holds behind it. -/
def stringAt (array beyond : List UInt8) : List UInt8 := (array ++ beyond).takeWhile (· != 0)

/-- Where the worker is, with the steps of the open and the error callback; its next step is
the one named. -/
inductive LinkPc where
  | absent
  | stage (p : FailurePoint)
  | storeOpen
  | onOpen
  | openLookup
  | readMetadata
  | writeText (text : List UInt8)
  | sendMessage (text : List UInt8)
  | serving
  | storeDisconnected (p : FailurePoint)
  | fail (p : FailurePoint)
  | errorLookup (p : FailurePoint)
  | errorClaim (p : FailurePoint)
  | errorRemove (p : FailurePoint)
  | errorDisconnect (p : FailurePoint)
  | errorReturn (p : FailurePoint)
  | onClose
  | ended
deriving DecidableEq, Repr

namespace LinkPc

/-- `doHandshake` calls `fail` itself, before `DISCONNECTED` is stored. -/
def failed : FailurePoint → LinkPc
  | .handshake => .fail .handshake
  | p => .storeDisconnected p

def afterStore : FailurePoint → LinkPc
  | .handshake => .onClose
  | p => .fail p

def afterError : FailurePoint → LinkPc
  | .handshake => .storeDisconnected .handshake
  | _ => .onClose

end LinkPc

/-- Where the media thread is in `stream_frame`, with the chunks that it still has to send:
before `isConnected`, before `writeBinary`, before the test of `sendBinary`, before its push. -/
inductive MediaPc where
  | idle
  | connected (chunks : List (List UInt8))
  | sending (chunks : List (List UInt8))
  | sendBinary (chunk : List UInt8) (chunks : List (List UInt8))
  | push (chunk : List UInt8) (chunks : List (List UInt8))
deriving DecidableEq, Repr

/-- A start command past its checks, the worker it starts and the media thread, while the
session lives and gets no other command. `wrapper` is `pAudioStreamer`, `bug` the channel
private; `queued` is the length of `sendQueue_`. `accepted`, `refused`, `opened` and `errored`
only record the run: the items put on the queue, whether it was too full for the metadata,
whether the open callback is over, and whether `onError_` was fired. -/
structure Startup where
  useTls : Bool
  metadata : CString
  initialMetadata : List UInt8
  start : StartPc
  worker : LinkPc
  media : MediaPc
  state : State
  wrapper : Bool
  cleanedUp : Bool
  closeRequested : Bool
  cleanupStarted : Bool
  attached : Bool
  bug : Bool
  queued : Nat
  accepted : List SendItem
  refused : Bool
  opened : Bool
  errored : Bool

/-- What the system answers the worker: `drained` items leave the queue, `beyond` is what
memory holds behind `initialMetadata`. -/
structure LinkEnv where
  fails : Bool
  inProgress : Bool
  leaves : Bool
  drained : Nat
  beyond : List UInt8

inductive StartupAct where
  | start (ok : Bool)
  | worker (env : LinkEnv)
  | media (chunks : List (List UInt8))

namespace Startup

def fresh (useTls : Bool) (metadata : CString) : Startup :=
  ⟨useTls, metadata, strncpy metadata maxMetadataLen, .create, .absent, .idle, .disconnected,
    false, false, false, false, false, false, 0, [], false, false, false⟩

def accept (s : Startup) (item : SendItem) : Startup :=
  { s with queued := s.queued + 1, accepted := s.accepted ++ [item] }

/-- `disconnect`, up to the join. -/
def requestClose (s : Startup) : Startup :=
  if s.state ≠ .disconnected ∧ s.state ≠ .closed then { s with state := .closing } else s

def startStep (s : Startup) (ok : Bool) : Startup :=
  match s.start with
  | .create => { s with start := .connect }
  | .connect =>
    { s with state := .connecting, worker := .stage .dnsLookup, start := .threadStarted }
  | .threadStarted => { s with start := .wrap }
  | .wrap => { s with wrapper := true, start := .init }
  | .init => { s with start := if ok then .addBug else .failed }
  | .addBug =>
    if ok then { s with attached := true, start := .setPrivate }
    else { s with start := .destroyTake }
  | .setPrivate => { s with bug := true, start := .done }
  | .done => s
  | .destroyTake => { s with wrapper := false, cleanedUp := true, start := .destroyDisconnect }
  | .destroyDisconnect => { s.requestClose with start := .destroyDelete }
  | .destroyDelete => if s.worker = .ended then { s with start := .failed } else s
  | .failed => s

/-- The open callback is over. -/
def serve (s : Startup) : Startup := { s with worker := .serving, opened := true }

def workerStep (s : Startup) (env : LinkEnv) : Startup :=
  match s.worker with
  | .absent => s
  | .stage p =>
    if env.fails then { s with worker := .failed p }
    else
      match p.next s.useTls env.inProgress with
      | some q => { s with worker := .stage q }
      | none => { s with worker := .storeOpen }
  | .storeOpen => { s with state := .opened, worker := .onOpen }
  | .onOpen => if s.cleanedUp then s.serve else { s with worker := .openLookup }
  | .openLookup => if s.bug then { s with worker := .readMetadata } else s.serve
  | .readMetadata =>
    let text := stringAt s.initialMetadata env.beyond
    if text.isEmpty then s.serve else { s with worker := .writeText text }
  | .writeText text =>
    if s.state = .opened then { s with worker := .sendMessage text } else s.serve
  | .sendMessage text =>
    match sendMessage text s.queued with
    | some item => (s.accept item).serve
    | none => { s.serve with refused := true }
  | .serving =>
    if env.leaves then { s with state := .closed, worker := .onClose }
    else { s with queued := s.queued - env.drained }
  | .storeDisconnected p => { s with state := .disconnected, worker := .afterStore p }
  | .fail p =>
    if s.cleanedUp then { s with worker := .afterError p }
    else { s with worker := .errorLookup p, errored := true }
  | .errorLookup p =>
    if s.bug then { s with closeRequested := true, worker := .errorClaim p }
    else { s with worker := .errorReturn p }
  | .errorClaim p =>
    if s.cleanupStarted then { s with worker := .errorReturn p }
    else { s with cleanupStarted := true, bug := false, wrapper := false,
                  worker := .errorRemove p }
  | .errorRemove p => { s with attached := false, worker := .errorDisconnect p }
  | .errorDisconnect p => { s.requestClose with cleanedUp := true, worker := .errorReturn p }
  | .errorReturn p => { s with worker := .afterError p }
  | .onClose => { s with worker := .ended }
  | .ended => s

def mediaStep (s : Startup) (chunks : List (List UInt8)) : Startup :=
  match s.media with
  | .idle =>
    if s.attached ∧ !s.closeRequested ∧ !s.cleanupStarted ∧ s.wrapper then
      { s with media := .connected chunks }
    else s
  | .connected chunks =>
    { s with media := if s.state = .opened then .sending chunks else .idle }
  | .sending [] => { s with media := .idle }
  | .sending (chunk :: chunks) =>
    { s with media := if chunk.isEmpty ∨ s.state ≠ .opened then .sending chunks
                      else .sendBinary chunk chunks }
  | .sendBinary chunk chunks =>
    { s with media := if s.state = .opened then .push chunk chunks else .sending chunks }
  | .push chunk chunks =>
    match unlessFull s.queued ⟨chunk, true⟩ with
    | some item => { s.accept item with media := .sending chunks }
    | none => { s with media := .sending chunks }

def step (s : Startup) : StartupAct → Startup
  | .start ok => s.startStep ok
  | .worker env => s.workerStep env
  | .media chunks => s.mediaStep chunks

end Startup

def StartupStep (s : Startup) (a : StartupAct) (t : Startup) : Prop := s.step a = t

end ModAudioStream
