import ModAudioStream.WsClient
import ModAudioStream.StreamerThreads
import Mathlib.Logic.Function.Basic

namespace ModAudioStream

/-- Where a call of `disconnect` is; its next step is the one named. -/
inductive DisconnectPc where
  | load
  | storeClosing
  | storeRunning
  | notify
  | join
  | returned
deriving DecidableEq, Repr

def DisconnectPc.inProgress : DisconnectPc → Bool
  | .load => false
  | .returned => false
  | _ => true

/-- The callbacks `onOpen_`, `onError_` and `onClose_`. -/
inductive ClientEvent where
  | opened
  | error
  | closed (code : Nat)
deriving DecidableEq, Repr

/-- Where the worker is in `threadFunc` and `processFrame`; its next step is the one named.
In a callback it may call `disconnect` itself. -/
inductive ThreadFuncPc where
  | stage (p : FailurePoint)
  | storeDisconnected (p : FailurePoint)
  | fail (p : FailurePoint)
  | errorCallback (p : FailurePoint)
  | storeOpen
  | onOpen
  | openCallback
  | loop
  | poll
  | frames
  | messageCallback
  | storeClosing
  | storeRunning
  | sendClose
  | exchange
  | onClose (code : Nat)
  | closeCallback
  | finished
deriving DecidableEq, Repr

namespace FailurePoint

/-- What follows when the connection does not fail at `p`, if anything. A `connect` that is in
progress is waited for. -/
def next (useTls inProgress : Bool) : FailurePoint → Option FailurePoint
  | .dnsLookup => some .socketCreation
  | .socketCreation => some .tcpConnect
  | .tcpConnect =>
    some (if inProgress then .tcpTimeout else if useTls then .sslContext else .handshake)
  | .tcpTimeout => some .tcpError
  | .tcpError => some (if useTls then .sslContext else .handshake)
  | .sslContext => some .tlsHandshake
  | .tlsHandshake => some .handshake
  | .handshake => none

/-- `doHandshake` calls `fail` itself, before `DISCONNECTED` is stored; the other failures
call it afterwards. -/
def failed : FailurePoint → ThreadFuncPc
  | .handshake => .fail .handshake
  | p => .storeDisconnected p

def afterStore : FailurePoint → ThreadFuncPc
  | .handshake => .onClose 1002
  | p => .fail p

def afterError : FailurePoint → ThreadFuncPc
  | .handshake => .storeDisconnected .handshake
  | _ => .onClose 1006

end FailurePoint

/-- What an iteration of the main loop meets: it breaks off, `recv` has data, or neither. -/
inductive Turn where
  | again
  | data
  | leave

/-- What `processFrame` meets next; `other` is a frame without a callback. -/
inductive NextFrame where
  | none
  | message
  | close
  | other

structure ThreadFuncEnv where
  fails : Bool
  inProgress : Bool
  turn : Turn
  frame : NextFrame
  disconnects : Bool

/-- A client after `connect` has returned. `inside` is a `disconnect` that the worker calls
in a callback, `callers` are those of the other threads. `passed`, `requested`, `fired` and
`after` only record the run: whether the handshake has passed, whether another thread has
stored `CLOSING`, the callbacks fired, and those fired after that store. -/
structure Client where
  useTls : Bool
  state : State
  running : Bool
  threadStarted : Bool
  worker : ThreadFuncPc
  inside : Option DisconnectPc
  callers : Nat → DisconnectPc
  passed : Bool
  requested : Bool
  fired : List ClientEvent
  after : List ClientEvent

inductive ClientAct where
  | worker (env : ThreadFuncEnv)
  | caller (i : Nat)

namespace Client

def start (useTls : Bool) : Client :=
  ⟨useTls, .connecting, true, true, .stage .dnsLookup, none, fun _ => .load, false, false, [], []⟩

def fire (c : Client) (e : ClientEvent) : Client :=
  { c with fired := c.fired ++ [e], after := if c.requested then c.after ++ [e] else c.after }

/-- A step of `disconnect`. The worker detaches the thread instead of joining it. What calls that
are at `thread_` together do to it is not followed here. -/
def disconnectStep (c : Client) (onWorker : Bool) : DisconnectPc → Client × DisconnectPc
  | .load =>
    (c, if c.state ≠ .disconnected ∧ c.state ≠ .closed then .storeClosing else .join)
  | .storeClosing =>
    ({ c with state := .closing, requested := c.requested || !onWorker }, .storeRunning)
  | .storeRunning => ({ c with running := false }, .notify)
  | .notify => (c, .join)
  | .join =>
    if c.threadStarted ∧ !onWorker ∧ c.worker ≠ .finished then (c, .join)
    else ({ c with threadStarted := false }, .returned)
  | .returned => (c, .returned)

/-- A step of the worker outside `disconnect`. -/
def threadFuncStep (c : Client) (env : ThreadFuncEnv) : Client :=
  match c.worker with
  | .stage p =>
    if env.fails then { c with worker := p.failed }
    else
      match p.next c.useTls env.inProgress with
      | some q => { c with worker := .stage q }
      | none => { c with worker := .storeOpen, passed := true }
  | .storeDisconnected p => { c with state := .disconnected, worker := p.afterStore }
  | .fail p => { c.fire .error with worker := .errorCallback p }
  | .errorCallback p => { c with worker := p.afterError }
  | .storeOpen => { c with state := .opened, worker := .onOpen }
  | .onOpen => { c.fire .opened with worker := .openCallback }
  | .openCallback => { c with worker := .loop }
  | .loop => { c with worker := if c.running then .poll else .sendClose }
  | .poll =>
    match env.turn with
    | .again => { c with worker := .loop }
    | .data => { c with worker := .frames }
    | .leave => { c with worker := .sendClose }
  | .frames =>
    match env.frame with
    | .none => { c with worker := .loop }
    | .message => { c with worker := .messageCallback }
    | .close => { c with worker := .storeClosing }
    | .other => c
  | .messageCallback => { c with worker := .frames }
  | .storeClosing => { c with state := .closing, worker := .storeRunning }
  | .storeRunning => { c with running := false, worker := .loop }
  | .sendClose => { c with worker := .exchange }
  | .exchange =>
    { c with state := .closed,
             worker := .onClose (if c.state = .closing then 1000 else 1006) }
  | .onClose code => { c.fire (.closed code) with worker := .closeCallback }
  | .closeCallback => { c with worker := .finished }
  | .finished => c

end Client

def ThreadFuncPc.inCallback : ThreadFuncPc → Bool
  | .errorCallback _ => true
  | .openCallback => true
  | .messageCallback => true
  | .closeCallback => true
  | _ => false

namespace Client

def workerStep (c : Client) (env : ThreadFuncEnv) : Client :=
  match c.inside with
  | some .returned => { c with inside := none }
  | some pc => { (c.disconnectStep true pc).1 with inside := some (c.disconnectStep true pc).2 }
  | none =>
    if c.worker.inCallback ∧ env.disconnects then { c with inside := some .load }
    else c.threadFuncStep env

def step (c : Client) : ClientAct → Client
  | .worker env => c.workerStep env
  | .caller i =>
    { (c.disconnectStep false (c.callers i)).1 with
        callers := Function.update c.callers i (c.disconnectStep false (c.callers i)).2 }

end Client

def ClientStep (c : Client) (a : ClientAct) (d : Client) : Prop := c.step a = d

end ModAudioStream
