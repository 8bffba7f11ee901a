import ModAudioStream.HandshakeResponse
import ModAudioStream.ProcessFrame
import ModAudioStream.UpgradeRequest
import ModAudioStream.WorkerLoop

namespace ModAudioStream

structure TLSOptions where
  caFile : List UInt8
  keyFile : List UInt8
  certFile : List UInt8
  disableHostnameValidation : Bool
deriving DecidableEq, Repr

/-- What a certificate chain is checked against. -/
inductive TrustStore where
  | empty
  | system
  | locations (caFile : List UInt8)
deriving DecidableEq, Repr

/-- An `SSL_CTX`, with what `threadFunc` sets. -/
structure SslCtx where
  handle : Nat
  verifyPeer : Bool
  trust : TrustStore
  certificate : Option (List UInt8 × List UInt8)
deriving DecidableEq, Repr

/-- An `SSL`, with the name it sends and the name it checks. -/
structure Ssl where
  handle : Nat
  serverName : List UInt8
  checkedHost : Option (List UInt8)
deriving DecidableEq, Repr

/-- What `threadFunc` gets from a call and has to give back. -/
inductive Resource where
  | addrinfo (res : Nat)
  | socket (fd : Nat)
  | sslCtx (handle : Nat)
  | ssl (handle : Nat)
deriving DecidableEq, Repr

inductive Callback where
  | onOpen
  | onMessage (msg : List UInt8)
  | onBinary (data : List UInt8)
  | onError (code : Nat) (msg : List UInt8)
  | onClose (code : Nat) (reason : List UInt8)
deriving DecidableEq, Repr

inductive Errno where
  | eagain
  | ewouldblock
  | other
deriving DecidableEq, Repr

inductive SslError where
  | wantRead
  | wantWrite
  | other
deriving DecidableEq, Repr

/-- What a read or write returns: more than 0, 0 for a connection that is closed, or less
than 0, with what `errno` and `SSL_get_error` then say. -/
inductive IoResult (α : Type) where
  | done (a : α)
  | closed
  | failed (errno : Errno) (sslError : SslError)
deriving Repr

inductive ConnectResult where
  | connected
  | inProgress
  | failed
deriving DecidableEq, Repr

/-- What the calls of a step give, and what another thread stores before it. -/
structure CallResults where
  getaddrinfo : Option Nat
  socket : Option Nat
  connect : ConnectResult
  pollConnect : Bool
  soError : Int
  sslCtxNew : Option Nat
  sslNew : Option Nat
  sslConnect : IoResult Unit
  errorString : List UInt8
  write : IoResult Nat
  readChar : IoResult UInt8
  poll : PollResult
  read : IoResult (List UInt8)
  storesClosing : Bool
  storesNotRunning : Bool

/-- Where the worker is in `threadFunc`. It has crashed when it uses a null `SSL` or reaches
outside `rxbuf_`, and it spins when `processFrame` never returns. -/
inductive WsThreadPc where
  | resolve
  | socket (res : Nat)
  | connect (res : Nat)
  | awaitConnect
  | socketError
  | sslCtxNew
  | sslNew
  | sslConnect
  | sendRequest (sent : Nat)
  | readResponse (reader : ResponseReader)
  | loop
  | poll
  | read
  | returned
  | crashed
  | spinning
deriving DecidableEq, Repr

/-- What a client has been configured with, and what `doHandshake` generates: a key, and what
SHA-1 makes of it. -/
structure ClientConfig where
  url : UrlFields
  tlsOpts : TLSOptions
  extraHeaders : List (List UInt8 × List UInt8)
  wsKey : List UInt8
  digest : Digest

def ClientConfig.request (cfg : ClientConfig) : List UInt8 :=
  upgradeRequest cfg.url cfg.wsKey cfg.extraHeaders

def ClientConfig.expectedAccept (cfg : ClientConfig) : List UInt8 := digestText cfg.digest

/-- A client of `wss://h/`. -/
def configWith (opts : TLSOptions) : ClientConfig :=
  ⟨⟨true, ascii "h", 443, ascii "/"⟩, opts, [], [], ⟨List.replicate 20 0, rfl⟩⟩

/-- The worker, with its callbacks installed. `obtained`, `released` and `callbacks` only
record the run. -/
structure WsThread where
  pc : WsThreadPc
  sockfd : Int
  sslCtx : Option SslCtx
  ssl : Option Ssl
  rx : Receiver
  obtained : List Resource
  released : List Resource
  callbacks : List Callback

/-- What `SSL_CTX_new` gives, after certificate verification and the client certificate have
been set. -/
def TLSOptions.context (opts : TLSOptions) (handle : Nat) : SslCtx where
  handle := handle
  verifyPeer := !(opts.caFile = ascii "NONE" || opts.disableHostnameValidation)
  trust :=
    if opts.caFile = ascii "NONE" || opts.disableHostnameValidation then .empty
    else if opts.caFile = ascii "SYSTEM" || opts.caFile.isEmpty then .system
    else .locations opts.caFile
  certificate :=
    if !opts.certFile.isEmpty && !opts.keyFile.isEmpty then some (opts.certFile, opts.keyFile)
    else none

/-- What `SSL_new` gives, with the name of the host. -/
def ClientConfig.session (cfg : ClientConfig) (handle : Nat) : Ssl where
  handle := handle
  serverName := cfg.url.host
  checkedHost := if cfg.tlsOpts.disableHostnameValidation then none else some cfg.url.host

/-- A result that says "not yet", as the read of the main loop tells it. -/
def IoResult.isTransient {α : Type} (tls : Bool) : IoResult α → Bool
  | .failed errno sslError =>
    if tls then sslError = .wantRead || sslError = .wantWrite
    else errno = .eagain || errno = .ewouldblock
  | _ => false

/-- The callback of a reaction of `processFrame`. -/
def Reaction.callback : Reaction → Option Callback
  | .message msg => some (.onMessage msg)
  | .binary data => some (.onBinary data)
  | .pong _ => none

namespace WsThread

/-- As `connect` starts it, with what an earlier connection has left in `rxbuf_`. -/
def start (rxbuf : List UInt8) : WsThread :=
  ⟨.resolve, -1, none, none, ⟨rxbuf, .connecting, true, true, true, []⟩, [], [], []⟩

/-- The worker makes no further call. -/
def isOver (t : WsThread) : Bool :=
  match t.pc with
  | .returned | .crashed | .spinning => true
  | _ => false

def obtain (t : WsThread) (r : Resource) : WsThread := { t with obtained := t.obtained ++ [r] }

def release (t : WsThread) (r : Resource) : WsThread := { t with released := t.released ++ [r] }

def call (t : WsThread) (c : Callback) : WsThread := { t with callbacks := t.callbacks ++ [c] }

def setState (t : WsThread) (state : State) : WsThread :=
  { t with rx := { t.rx with state := state } }

def fail (t : WsThread) (msg : List UInt8) (code : Nat) : WsThread := t.call (.onError code msg)

/-- `::close(sockfd_); sockfd_ = -1`. -/
def closeSocket (t : WsThread) : WsThread :=
  { t.release (.socket t.sockfd.toNat) with sockfd := -1 }

def freeSsl (t : WsThread) : WsThread :=
  match t.ssl with
  | some ssl => { t.release (.ssl ssl.handle) with ssl := none }
  | none => t

def freeSslCtx (t : WsThread) : WsThread :=
  match t.sslCtx with
  | some ctx => { t.release (.sslCtx ctx.handle) with sslCtx := none }
  | none => t

/-- `onClose_`, and the end of `threadFunc`. -/
def finish (t : WsThread) (code : Nat) (reason : List UInt8) : WsThread :=
  { t.call (.onClose code reason) with pc := .returned }

/-- The exits before the upgrade that have a socket. -/
def abort (t : WsThread) (msg : List UInt8) (code : Nat) (reason : List UInt8) : WsThread :=
  ((t.closeSocket.setState .disconnected).fail msg code).finish 1006 reason

/-- The exit for a `doHandshake` that has failed. -/
def handshakeFailed (t : WsThread) (e : HandshakeFailure) : WsThread :=
  ((t.fail e.message 6).setState .disconnected).freeSsl.freeSslCtx.closeSocket.finish 1002
    (ascii "WebSocket handshake failed")

def opened (t : WsThread) : WsThread :=
  { (t.setState .opened).call .onOpen with pc := .loop }

/-- What follows the main loop. The Close frame and `SSL_shutdown` are tried, whatever
becomes of them. -/
def cleanup (t : WsThread) : WsThread :=
  let t := if 0 ≤ t.sockfd then t.freeSsl.freeSslCtx.closeSocket else t
  if t.rx.state = .closing then (t.setState .closed).finish 1000 (ascii "Connection closed")
  else (t.setState .closed).finish 1006 (ascii "Connection closed unexpectedly")

/-- The receive buffer when `processFrame` is called. -/
def receiving (t : WsThread) (bytes : List UInt8) : Receiver :=
  { t.rx with rxbuf := t.rx.rxbuf ++ bytes, out := [] }

/-- What the main loop does with the bytes that it has read. -/
def receive (t : WsThread) (bytes : List UInt8) : WsThread :=
  match processFrame (t.receiving bytes) with
  | .returned rx =>
    { t with
      rx := { rx with out := [] }
      callbacks := t.callbacks ++ rx.out.filterMap Reaction.callback
      pc := .loop }
  | .outside => { t with pc := .crashed }
  | .spinning => { t with pc := .spinning }

/-- What `disconnect` stores from another thread. -/
def interfere (t : WsThread) (r : CallResults) : WsThread :=
  { t with rx := { t.rx with
    state := if r.storesClosing then .closing else t.rx.state
    running := t.rx.running && !r.storesNotRunning } }

@[simp] theorem interfere_pc (t : WsThread) (r : CallResults) : (t.interfere r).pc = t.pc := rfl

@[simp] theorem interfere_ssl (t : WsThread) (r : CallResults) : (t.interfere r).ssl = t.ssl := rfl

@[simp] theorem interfere_callbacks (t : WsThread) (r : CallResults) :
    (t.interfere r).callbacks = t.callbacks := rfl

@[simp] theorem abort_pc (t : WsThread) (msg : List UInt8) (code : Nat) (reason : List UInt8) :
    (t.abort msg code reason).pc = .returned := rfl

@[simp] theorem handshakeFailed_pc (t : WsThread) (e : HandshakeFailure) :
    (t.handshakeFailed e).pc = .returned := rfl

section

variable (cfg : ClientConfig)

/-- Behind the TCP connection, which is now set to be non-blocking. -/
def afterConnect (t : WsThread) : WsThread :=
  { t with pc := if cfg.url.useTls then .sslCtxNew else .sendRequest 0 }

/-- The calls up to the TCP connection. -/
def connectStep (t : WsThread) (r : CallResults) : WsThread :=
  match t.pc with
  | .resolve =>
    match r.getaddrinfo with
    | none => ((t.setState .disconnected).fail
        (ascii "DNS lookup failed for " ++ cfg.url.host) 6).finish 1006 (ascii "DNS lookup failed")
    | some res => { t.obtain (.addrinfo res) with pc := .socket res }
  | .socket res =>
    match r.socket with
    | none => (((t.setState .disconnected).release (.addrinfo res)).fail
        (ascii "Socket creation failed") 6).finish 1006 (ascii "Socket creation failed")
    | some fd => { t.obtain (.socket fd) with sockfd := fd, pc := .connect res }
  | .connect res =>
    let t := t.release (.addrinfo res)
    match r.connect with
    | .connected => t.afterConnect cfg
    | .inProgress => { t with pc := .awaitConnect }
    | .failed => t.abort (ascii "TCP connect failed") 6 (ascii "TCP connect failed")
  | .awaitConnect =>
    if r.pollConnect then { t with pc := .socketError }
    else t.abort (ascii "TCP connect timeout") 6 (ascii "TCP connect timeout")
  | .socketError =>
    if r.soError = 0 then t.afterConnect cfg
    else t.abort (ascii "TCP connect error") 6 (ascii "TCP connect error")
  | _ => t

/-- The calls of the TLS handshake. -/
def tlsStep (t : WsThread) (r : CallResults) : WsThread :=
  match t.pc with
  | .sslCtxNew =>
    match r.sslCtxNew with
    | none => t.abort (ascii "SSL_CTX_new failed") 7 (ascii "TLS context creation failed")
    | some ctx =>
      { t.obtain (.sslCtx ctx) with sslCtx := some (cfg.tlsOpts.context ctx), pc := .sslNew }
  | .sslNew =>
    match r.sslNew with
    -- `SSL_set_fd` and what follows are given the null pointer
    | none => { t with pc := .crashed }
    | some ssl => { t.obtain (.ssl ssl) with ssl := some (cfg.session ssl), pc := .sslConnect }
  | .sslConnect =>
    match r.sslConnect with
    | .done () => { t with pc := .sendRequest 0 }
    | _ => t.freeSsl.freeSslCtx.abort (ascii "TLS handshake failed: " ++ r.errorString) 8
        (ascii "TLS handshake failed")
  | _ => t

/-- The calls of `doHandshake`. -/
def handshakeStep (t : WsThread) (r : CallResults) : WsThread :=
  match t.pc with
  | .sendRequest sent =>
    if sent < cfg.request.length then
      match r.write with
      | .done (n + 1) => { t with pc := .sendRequest (sent + (n + 1)) }
      | _ => t.handshakeFailed .sendRequest
    else { t with pc := .readResponse (.status []) }
  | .readResponse reader =>
    match r.readChar with
    | .done c =>
      match reader.feed cfg.expectedAccept c with
      | .more reader => { t with pc := .readResponse reader }
      | .done => t.opened
      | .failed e => t.handshakeFailed e
    | _ => t.handshakeFailed reader.closed
  | _ => t

end

/-- The calls of the main loop. What it writes, from the queue, as pings or as pongs, changes
nothing here. -/
def loopStep (t : WsThread) (r : CallResults) : WsThread :=
  match t.pc with
  | .loop => if t.rx.running then { t with pc := .poll } else t.cleanup
  | .poll =>
    match r.poll with
    | .interrupted => { t with pc := .loop }
    | .failed => t.cleanup
    | .ready pollin _ => { t with pc := if pollin then .read else .loop }
  | .read =>
    match r.read with
    | .done bytes => t.receive bytes
    | .closed => t.cleanup
    | .failed errno sslError =>
      if (IoResult.failed errno sslError : IoResult Unit).isTransient t.ssl.isSome then
        { t with pc := .loop }
      else t.cleanup
  | _ => t

def step (cfg : ClientConfig) (t : WsThread) (r : CallResults) : WsThread :=
  let t := t.interfere r
  match t.pc with
  | .resolve | .socket _ | .connect _ | .awaitConnect | .socketError => t.connectStep cfg r
  | .sslCtxNew | .sslNew | .sslConnect => t.tlsStep cfg r
  | .sendRequest _ | .readResponse _ => t.handshakeStep cfg r
  | .loop | .poll | .read => t.loopStep r
  | .returned | .crashed | .spinning => t

end WsThread

end ModAudioStream
