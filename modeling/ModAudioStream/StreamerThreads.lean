import ModAudioStream.Runs

namespace ModAudioStream

/-- Where `threadFunc` calls `fail`; `handshake` is any of the places in `doHandshake`. -/
inductive FailurePoint where
  | dnsLookup
  | socketCreation
  | tcpConnect
  | tcpTimeout
  | tcpError
  | sslContext
  | tlsHandshake
  | handshake
deriving DecidableEq, Repr

inductive Member where
  | sockfd
  | ssl
  | sslCtx
  | state
  | onClose
deriving DecidableEq, Repr

def FailurePoint.members : FailurePoint → List Member
  | .handshake => [.state, .ssl, .sslCtx, .sockfd, .onClose]
  | _ => [.onClose]

/-- The members `threadFunc` uses after its main loop, in order. -/
def closingMembers : List Member := [.sockfd, .ssl, .sslCtx, .sockfd, .state, .onClose]

/-- The rest of `stream_session_cleanup` once it has set `cleanup_started`. -/
inductive CleanupPc where
  | removeBug
  | deleteWrapper
  | markCleanedUp
  | disconnect
  | ret
deriving DecidableEq, Repr

/-- Where the worker is: in `threadFunc`, in the error callback of a failure, in the
callbacks of the open connection, in its last uses of members, in the close callback. -/
inductive ThreadPc where
  | absent
  | connecting
  | fail (p : FailurePoint)
  | errorLock (p : FailurePoint)
  | errorCheck (p : FailurePoint)
  | errorNotify (p : FailurePoint)
  | errorBug (p : FailurePoint)
  | errorClaim (p : FailurePoint)
  | errorCleanup (p : FailurePoint) (pc : CleanupPc)
  | errorReturn (p : FailurePoint)
  | loop
  | callbackLock
  | callbackReturn
  | uses (members : List Member)
  | closeLock
  | closeReturn
  | finished
deriving DecidableEq, Repr

def ThreadPc.usesMembers : ThreadPc → Bool
  | .absent => false
  | .uses members => !members.isEmpty
  | .closeLock => false
  | .closeReturn => false
  | .finished => false
  | _ => true

/-- Where `start_capture` is, with `stream_data_init` and `stream_session_destroy`. -/
inductive StartPc where
  | create
  | connect
  | threadStarted
  | wrap
  | init
  | addBug
  | setPrivate
  | done
  | destroyTake
  | destroyDisconnect
  | destroyDelete
  | failed
deriving DecidableEq, Repr

/-- A session with its streamer. `sp`, `wrapper`, `self`, `streamer` and `copies` are
the owning `shared_ptr`s: the one of `stream_data_init`, the heap one behind
`pAudioStreamer`, the lock of the worker's callback, the copy of
`stream_session_cleanup` and the copies of `stream_frame` and `send_text`. -/
structure Lifetime where
  start : StartPc
  worker : ThreadPc
  cleanup : Option CleanupPc
  created : Bool
  sp : Bool
  wrapper : Bool
  self : Bool
  streamer : Bool
  copies : Nat
  published : Bool
  bug : Bool
  cleanupStarted : Bool
  callbacks : Bool
  cleanedUp : Bool
  threadStarted : Bool
  joinable : Bool
deriving DecidableEq, Repr

structure ThreadEnv where
  failure : Option FailurePoint
  sessionFound : Bool
  leaves : Bool

inductive LifetimeAct where
  | start (ok : Bool)
  | worker (env : ThreadEnv)
  | stop (channelIsClosing : Bool)
  | cleanup
  | copy
  | drop

namespace Lifetime

def fresh : Lifetime :=
  ⟨.create, .absent, none, false, false, false, false, false, 0, false, false, false, false,
    false, false, false⟩

def owned (s : Lifetime) : Bool :=
  s.sp || s.wrapper || s.self || s.streamer || decide (0 < s.copies)

/-- The last `shared_ptr` is gone: `AudioStreamer` and its client are destroyed. -/
def destroyed (s : Lifetime) : Bool := s.created && !s.owned

/-- The locked part of `stream_session_cleanup`, which lets one caller through. -/
def claimable (s : Lifetime) : Bool := s.bug && !s.cleanupStarted

def claim (s : Lifetime) : Lifetime :=
  { s with cleanupStarted := true, bug := false, published := false, streamer := s.wrapper }

def joinsWorker (s : Lifetime) : Bool := s.threadStarted && s.joinable

/-- `disconnect` of another thread than the worker: `none` while it waits in `join`. -/
def disconnect (s : Lifetime) : Option Lifetime :=
  if s.joinsWorker then
    if s.worker = .finished then some { s with threadStarted := false, joinable := false }
    else none
  else some s

def disconnectSelf (s : Lifetime) : Lifetime :=
  if s.joinsWorker then { s with threadStarted := false, joinable := false } else s

def startStep (s : Lifetime) (ok : Bool) : Lifetime :=
  match s.start with
  | .create => { s with created := true, sp := true, callbacks := true, start := .connect }
  | .connect => { s with worker := .connecting, joinable := true, start := .threadStarted }
  | .threadStarted => { s with threadStarted := true, start := .wrap }
  | .wrap => { s with wrapper := true, published := true, start := .init }
  | .init => { s with sp := false, start := if ok then .addBug else .failed }
  | .addBug => { s with start := if ok then .setPrivate else .destroyTake }
  | .setPrivate => { s with bug := true, start := .done }
  | .done => s
  | .destroyTake =>
    { s with published := false, callbacks := false, cleanedUp := true,
             start := .destroyDisconnect }
  | .destroyDisconnect =>
    match s.disconnect with
    | some t => { t with start := .destroyDelete }
    | none => s
  | .destroyDelete => { s with wrapper := false, start := .failed }
  | .failed => s

def workerStep (s : Lifetime) (env : ThreadEnv) : Lifetime :=
  match s.worker with
  | .absent => s
  | .connecting =>
    match env.failure with
    | some p => { s with worker := .fail p }
    | none => { s with worker := if s.callbacks then .callbackLock else .loop }
  | .fail p => { s with worker := if s.callbacks then .errorLock p else .uses p.members }
  | .errorLock p =>
    if s.owned then { s with self := true, worker := .errorCheck p }
    else { s with worker := .uses p.members }
  | .errorCheck p => { s with worker := if s.cleanedUp then .errorReturn p else .errorNotify p }
  | .errorNotify p => { s with worker := if env.sessionFound then .errorBug p else .errorReturn p }
  | .errorBug p => { s with worker := if s.bug then .errorClaim p else .errorReturn p }
  | .errorClaim p =>
    if s.claimable then { s.claim with worker := .errorCleanup p .removeBug }
    else { s with worker := .errorReturn p }
  | .errorCleanup p .removeBug => { s with worker := .errorCleanup p .deleteWrapper }
  | .errorCleanup p .deleteWrapper =>
    { s with wrapper := false, worker := .errorCleanup p .markCleanedUp }
  | .errorCleanup p .markCleanedUp =>
    { s with callbacks := false, cleanedUp := true, worker := .errorCleanup p .disconnect }
  | .errorCleanup p .disconnect => { s.disconnectSelf with worker := .errorCleanup p .ret }
  | .errorCleanup p .ret => { s with streamer := false, worker := .errorReturn p }
  | .errorReturn p => { s with self := false, worker := .uses p.members }
  | .loop => { s with worker := if env.leaves then .uses closingMembers else .callbackLock }
  | .callbackLock =>
    if s.owned then { s with self := true, worker := .callbackReturn }
    else { s with worker := .loop }
  | .callbackReturn => { s with self := false, worker := .loop }
  | .uses (_ :: members) => { s with worker := .uses members }
  | .uses [] => { s with worker := if s.callbacks then .closeLock else .finished }
  | .closeLock =>
    if s.owned then { s with self := true, worker := .closeReturn }
    else { s with worker := .finished }
  | .closeReturn => { s with self := false, worker := .finished }
  | .finished => s

def cleanupStep (s : Lifetime) : Lifetime :=
  match s.cleanup with
  | none => s
  | some .removeBug => { s with cleanup := some .deleteWrapper }
  | some .deleteWrapper => { s with wrapper := false, cleanup := some .markCleanedUp }
  | some .markCleanedUp =>
    { s with callbacks := false, cleanedUp := true, cleanup := some .disconnect }
  | some .disconnect =>
    match s.disconnect with
    | some t => { t with cleanup := some .ret }
    | none => s
  | some .ret => { s with streamer := false, cleanup := none }

/-- `stream_session_cleanup` of a stop command or, on the media thread, of a hangup. -/
def stopStep (s : Lifetime) (channelIsClosing : Bool) : Lifetime :=
  if s.claimable then
    { s.claim with cleanup := some (if channelIsClosing then .deleteWrapper else .removeBug) }
  else s

def step (s : Lifetime) : LifetimeAct → Lifetime
  | .start ok => s.startStep ok
  | .worker env => s.workerStep env
  | .stop channelIsClosing => s.stopStep channelIsClosing
  | .cleanup => s.cleanupStep
  | .copy => if s.published then { s with copies := s.copies + 1 } else s
  | .drop => { s with copies := s.copies - 1 }

end Lifetime

def LifetimeStep (s : Lifetime) (a : LifetimeAct) (t : Lifetime) : Prop := s.step a = t

end ModAudioStream
