import ModAudioStream.TransientResults
import ModAudioStream.WorkerProtocol

namespace ModAudioStream

/-- What OpenSSL finds out about the certificate of a server: whether its chain leads to a
store, and whether it is for a host. -/
structure PeerCertificate where
  trusted : TrustStore → Bool
  isFor : List UInt8 → Bool

/-- With `SSL_VERIFY_NONE` the handshake goes on whatever verification says. -/
def PeerCertificate.accepted (peer : PeerCertificate) (ctx : SslCtx) (ssl : Ssl) : Bool :=
  !ctx.verifyPeer || (peer.trusted ctx.trust && ssl.checkedHost.all peer.isFor)

/-- The store that the options name. -/
def TLSOptions.store (opts : TLSOptions) : TrustStore :=
  if opts.caFile = ascii "SYSTEM" || opts.caFile.isEmpty then .system
  else .locations opts.caFile

/-- The options that differ in the one flag. -/
def TLSOptions.toggled (opts : TLSOptions) : TLSOptions :=
  { opts with disableHostnameValidation := !opts.disableHostnameValidation }

def ClientConfig.toggled (cfg : ClientConfig) : ClientConfig :=
  { cfg with tlsOpts := cfg.tlsOpts.toggled }

def ClientConfig.accepts (cfg : ClientConfig) (peer : PeerCertificate) : Bool :=
  peer.accepted (cfg.tlsOpts.context 0) (cfg.session 0)

namespace WsThread

/-- If `SSL_connect` succeeds here, it has accepted the certificate. -/
def Allows (peer : PeerCertificate) (t : WsThread) (r : CallResults) : Prop :=
  t.pc = .sslConnect → r.sslConnect = .done () →
    ∀ ctx ssl, t.sslCtx = some ctx → t.ssl = some ssl → peer.accepted ctx ssl = true

def PeerStep (cfg : ClientConfig) (peer : PeerCertificate) (t : WsThread) (r : CallResults)
    (t' : WsThread) : Prop :=
  t.Allows peer r ∧ t.step cfg r = t'

def CallsOnOpen (cfg : ClientConfig) (t : WsThread) (r : CallResults) : Prop :=
  ∃ calls, (t.step cfg r).callbacks = t.callbacks ++ calls ∧ .onOpen ∈ calls

/-- The chain has been verified against the store. -/
def ChainVerified (peer : PeerCertificate) (store : TrustStore) (t : WsThread) : Prop :=
  ∃ ctx, t.sslCtx = some ctx ∧ ctx.verifyPeer = true ∧ ctx.trust = store ∧
    peer.trusted store = true

/-- These results of the calls give these callbacks. -/
def Yields (cfg : ClientConfig) (peer : PeerCertificate) (rxbuf : List UInt8)
    (results : List CallResults) (calls : List Callback) : Prop :=
  ∃ t, Run (PeerStep cfg peer) (start rxbuf) results t ∧ t.callbacks = calls

/-- On every `wss://` run, `onOpen_` is called only when the chain has been verified. -/
def OpensOnlyVerified (opts : TLSOptions) : Prop :=
  ∀ cfg : ClientConfig, cfg.url.useTls = true → cfg.tlsOpts = opts →
    ∀ (peer : PeerCertificate) (rxbuf : List UInt8) (results : List CallResults),
      Each (PeerStep cfg peer)
        (fun t r => t.CallsOnOpen cfg r →
          opts.caFile = ascii "NONE" ∨ t.ChainVerified peer opts.store)
        (start rxbuf) results

/-- With the flag or without it, an untrusted chain gives the same runs. -/
def FlagKeepsChain (opts : TLSOptions) : Prop :=
  ∀ cfg : ClientConfig, cfg.url.useTls = true → cfg.tlsOpts = opts →
    ∀ peer : PeerCertificate, peer.trusted opts.store = false →
      ∀ (rxbuf : List UInt8) (results : List CallResults) (calls : List Callback),
        Yields cfg peer rxbuf results calls ↔ Yields cfg.toggled peer rxbuf results calls

/-- Where the worker is with TLS, and what it has set up until then. -/
inductive TlsStage (cfg : ClientConfig) (peer : PeerCertificate) (t : WsThread) : Prop
  | connecting (hpc : t.pc = .resolve ∨ (∃ res, t.pc = .socket res) ∨
      (∃ res, t.pc = .connect res) ∨ t.pc = .awaitConnect ∨ t.pc = .socketError)
  | connected (hpc : t.pc = .sslCtxNew)
  | context (ctx : Nat) (hpc : t.pc = .sslNew) (hctx : t.sslCtx = some (cfg.tlsOpts.context ctx))
  | session (ctx ssl : Nat) (hpc : t.pc = .sslConnect)
      (hctx : t.sslCtx = some (cfg.tlsOpts.context ctx)) (hssl : t.ssl = some (cfg.session ssl))
  | secured (ctx : Nat) (hpc : (∃ sent, t.pc = .sendRequest sent) ∨
      ∃ reader, t.pc = .readResponse reader)
      (hctx : t.sslCtx = some (cfg.tlsOpts.context ctx)) (haccepts : cfg.accepts peer = true)
  | past (h : t.PastOpen)

section

variable {t : WsThread} {r : CallResults} {cfg : ClientConfig} {peer : PeerCertificate}

theorem tlsStage_start (rxbuf : List UInt8) : (start rxbuf).TlsStage cfg peer :=
  .connecting (Or.inl rfl)

theorem tlsStage_afterConnect (htls : cfg.url.useTls = true) :
    (t.afterConnect cfg).TlsStage cfg peer := by
  refine .connected ?_
  simp [afterConnect, htls]

theorem tlsStage_connectStep (htls : cfg.url.useTls = true)
    (hpc : t.pc = .resolve ∨ (∃ res, t.pc = .socket res) ∨ (∃ res, t.pc = .connect res) ∨
      t.pc = .awaitConnect ∨ t.pc = .socketError) :
    (t.connectStep cfg r).TlsStage cfg peer := by
  rcases hpc with hpc | ⟨res, hpc⟩ | ⟨res, hpc⟩ | hpc | hpc
  · simp only [connectStep, hpc]
    split
    · exact .past (pastOpen_of_over rfl)
    · exact .connecting (Or.inr (Or.inl ⟨_, rfl⟩))
  · simp only [connectStep, hpc]
    split
    · exact .past (pastOpen_of_over rfl)
    · exact .connecting (Or.inr (Or.inr (Or.inl ⟨_, rfl⟩)))
  · simp only [connectStep, hpc]
    split
    · exact tlsStage_afterConnect htls
    · exact .connecting (Or.inr (Or.inr (Or.inr (Or.inl rfl))))
    · exact .past (pastOpen_of_over rfl)
  · simp only [connectStep, hpc]
    split
    · exact .connecting (Or.inr (Or.inr (Or.inr (Or.inr rfl))))
    · exact .past (pastOpen_of_over rfl)
  · simp only [connectStep, hpc]
    split
    · exact tlsStage_afterConnect htls
    · exact .past (pastOpen_of_over rfl)

theorem tlsStage_sslCtxNew (hpc : t.pc = .sslCtxNew) : (t.tlsStep cfg r).TlsStage cfg peer := by
  simp only [tlsStep, hpc]
  split
  · exact .past (pastOpen_of_over rfl)
  next ctx _ => exact .context ctx rfl rfl

theorem tlsStage_sslNew {ctx : Nat} (hpc : t.pc = .sslNew)
    (hctx : t.sslCtx = some (cfg.tlsOpts.context ctx)) :
    (t.tlsStep cfg r).TlsStage cfg peer := by
  simp only [tlsStep, hpc]
  split
  · exact .past (pastOpen_of_over rfl)
  next ssl _ => exact .session ctx ssl rfl hctx rfl

theorem tlsStage_sslConnect {ctx ssl : Nat} (hpc : t.pc = .sslConnect)
    (hctx : t.sslCtx = some (cfg.tlsOpts.context ctx)) (hssl : t.ssl = some (cfg.session ssl))
    (hallows : t.Allows peer r) : (t.tlsStep cfg r).TlsStage cfg peer := by
  simp only [tlsStep, hpc]
  split
  next hdone =>
    have haccepted := hallows hpc hdone _ _ hctx hssl
    exact .secured ctx (Or.inl ⟨0, rfl⟩) hctx haccepted
  · exact .past (pastOpen_of_over rfl)

theorem tlsStage_handshakeStep {ctx : Nat}
    (hpc : (∃ sent, t.pc = .sendRequest sent) ∨ ∃ reader, t.pc = .readResponse reader)
    (hctx : t.sslCtx = some (cfg.tlsOpts.context ctx)) (haccepts : cfg.accepts peer = true) :
    (t.handshakeStep cfg r).TlsStage cfg peer := by
  rcases hpc with ⟨sent, hpc⟩ | ⟨reader, hpc⟩
  · simp only [handshakeStep, hpc]
    split
    · split
      · exact .secured ctx (Or.inl ⟨_, rfl⟩) hctx haccepts
      · exact .past (pastOpen_of_over rfl)
    · exact .secured ctx (Or.inr ⟨_, rfl⟩) hctx haccepts
  · simp only [handshakeStep, hpc]
    split
    · split
      · exact .secured ctx (Or.inr ⟨_, rfl⟩) hctx haccepts
      · exact .past (Or.inl rfl)
      · exact .past (pastOpen_of_over rfl)
    · exact .past (pastOpen_of_over rfl)

/-- A step that OpenSSL allows leads from a stage to a stage. -/
theorem TlsStage.step (htls : cfg.url.useTls = true) (h : t.TlsStage cfg peer)
    (hallows : t.Allows peer r) : (t.step cfg r).TlsStage cfg peer := by
  cases h with
  | connecting hpc =>
    have hstep := @tlsStage_connectStep (t.interfere r) r cfg peer htls hpc
    rcases hpc with hpc | ⟨res, hpc⟩ | ⟨res, hpc⟩ | hpc | hpc <;>
      simpa only [step_eq, interfere_pc, hpc] using hstep
  | connected hpc =>
    simpa only [step_eq, interfere_pc, hpc] using tlsStage_sslCtxNew (t := t.interfere r) hpc
  | context ctx hpc hctx =>
    simpa only [step_eq, interfere_pc, hpc] using tlsStage_sslNew (t := t.interfere r) hpc hctx
  | session ctx ssl hpc hctx hssl =>
    simpa only [step_eq, interfere_pc, hpc] using
      tlsStage_sslConnect (t := t.interfere r) hpc hctx hssl hallows
  | secured ctx hpc hctx haccepts =>
    have hstep := tlsStage_handshakeStep (t := t.interfere r) (r := r) hpc hctx haccepts
    rcases hpc with ⟨sent, hpc⟩ | ⟨reader, hpc⟩
    · simpa only [step_eq, interfere_pc, hpc] using hstep
    · simpa only [step_eq, interfere_pc, hpc] using hstep
  | past h => exact .past (h.step cfg r)

theorem abort_callbacks (t : WsThread) (msg : List UInt8) (code : Nat) (reason : List UInt8) :
    (t.abort msg code reason).callbacks =
      t.callbacks ++ [.onError code msg, .onClose 1006 reason] := by
  simp [abort, finish, call, fail, setState, closeSocket, release]

@[simp] theorem freeTls_callbacks (t : WsThread) :
    t.freeSsl.freeSslCtx.callbacks = t.callbacks := by
  rw [freeTls_eq]

theorem handshakeFailed_callbacks (t : WsThread) (e : HandshakeFailure) :
    (t.handshakeFailed e).callbacks = t.callbacks ++
      [.onError 6 e.message, .onClose 1002 (ascii "WebSocket handshake failed")] := by
  simp [handshakeFailed, finish, call, closeSocket, release]
  simp [setState, fail, call]

theorem cleanup_callbacks (t : WsThread) :
    ∃ code reason, t.cleanup.callbacks = t.callbacks ++ [.onClose code reason] := by
  unfold cleanup
  have hfree : (if 0 ≤ t.sockfd then t.freeSsl.freeSslCtx.closeSocket else t).callbacks =
      t.callbacks := by
    split
    · exact freeTls_callbacks t
    · rfl
  rw [← hfree]
  generalize (if 0 ≤ t.sockfd then t.freeSsl.freeSslCtx.closeSocket else t) = t
  dsimp only
  split
  · exact ⟨_, _, rfl⟩
  · exact ⟨_, _, rfl⟩

/-- The callbacks of the calls up to the TCP connection. -/
theorem connectStep_callbacks (t : WsThread) (cfg : ClientConfig) (r : CallResults) :
    ∃ calls, (t.connectStep cfg r).callbacks = t.callbacks ++ calls ∧ .onOpen ∉ calls := by
  have hsame : ∃ calls, t.callbacks = t.callbacks ++ calls ∧ .onOpen ∉ calls := ⟨[], by simp⟩
  unfold connectStep
  split
  · split
    · exact ⟨_, List.append_assoc _ _ _, by simp⟩
    · exact hsame
  · split
    · exact ⟨_, List.append_assoc _ _ _, by simp⟩
    · exact hsame
  · split
    · exact hsame
    · exact hsame
    · exact ⟨_, abort_callbacks _ _ _ _, by simp⟩
  · split
    · exact hsame
    · exact ⟨_, abort_callbacks _ _ _ _, by simp⟩
  · split
    · exact hsame
    · exact ⟨_, abort_callbacks _ _ _ _, by simp⟩
  · exact hsame

theorem tlsStep_callbacks (t : WsThread) (cfg : ClientConfig) (r : CallResults) :
    ∃ calls, (t.tlsStep cfg r).callbacks = t.callbacks ++ calls ∧ .onOpen ∉ calls := by
  have hsame : ∃ calls, t.callbacks = t.callbacks ++ calls ∧ .onOpen ∉ calls := ⟨[], by simp⟩
  unfold tlsStep
  split
  · split
    · exact ⟨_, abort_callbacks _ _ _ _, by simp⟩
    · exact hsame
  · split
    · exact hsame
    · exact hsame
  · split
    · exact hsame
    · have habort := abort_callbacks t.freeSsl.freeSslCtx
        (ascii "TLS handshake failed: " ++ r.errorString) 8 (ascii "TLS handshake failed")
      rw [freeTls_callbacks] at habort
      exact ⟨_, habort, by simp⟩
  · exact hsame

theorem receive_callbacks (t : WsThread) (bytes : List UInt8) :
    ∃ calls, (t.receive bytes).callbacks = t.callbacks ++ calls ∧ .onOpen ∉ calls := by
  have hsame : ∃ calls, t.callbacks = t.callbacks ++ calls ∧ .onOpen ∉ calls := ⟨[], by simp⟩
  unfold receive
  split
  · refine ⟨_, rfl, fun hopen => ?_⟩
    have hreceived := isReceived_callbacks _ hopen
    cases hreceived
  · exact hsame
  · exact hsame

theorem loopStep_callbacks (t : WsThread) (r : CallResults) :
    ∃ calls, (t.loopStep r).callbacks = t.callbacks ++ calls ∧ .onOpen ∉ calls := by
  have hsame : ∃ calls, t.callbacks = t.callbacks ++ calls ∧ .onOpen ∉ calls := ⟨[], by simp⟩
  have hcleanup : ∃ calls, t.cleanup.callbacks = t.callbacks ++ calls ∧ .onOpen ∉ calls := by
    obtain ⟨code, reason, hclose⟩ := cleanup_callbacks t
    exact ⟨_, hclose, by simp⟩
  unfold loopStep
  split
  · split
    · exact hsame
    · exact hcleanup
  · split
    · exact hsame
    · exact hcleanup
    · exact hsame
  · split
    · exact receive_callbacks t _
    · exact hcleanup
    · split
      · exact hsame
      · exact hcleanup
  · exact hsame

theorem handshakeStep_callbacks (t : WsThread) (cfg : ClientConfig) (r : CallResults) :
    ∃ calls, (t.handshakeStep cfg r).callbacks = t.callbacks ++ calls ∧
      (.onOpen ∈ calls → ∃ reader, t.pc = .readResponse reader) := by
  unfold handshakeStep
  split
  · split
    · split
      · exact ⟨[], by simp⟩
      · exact ⟨_, handshakeFailed_callbacks _ _, by simp⟩
    · exact ⟨[], by simp⟩
  next reader hpc =>
    split
    · split
      · exact ⟨[], by simp⟩
      · exact ⟨[.onOpen], rfl, fun _ => ⟨reader, hpc⟩⟩
      · exact ⟨_, handshakeFailed_callbacks _ _, by simp⟩
    · exact ⟨_, handshakeFailed_callbacks _ _, by simp⟩
  · exact ⟨[], by simp⟩

/-- Only the end of the response makes the worker call `onOpen_`. -/
theorem step_callbacks (t : WsThread) (cfg : ClientConfig) (r : CallResults) :
    ∃ calls, (t.step cfg r).callbacks = t.callbacks ++ calls ∧
      (.onOpen ∈ calls → ∃ reader, t.pc = .readResponse reader) := by
  rcases step_cases t cfg r with h | h | h | ⟨-, h⟩ | ⟨-, h⟩
  · obtain ⟨calls, hcalls, hnone⟩ := connectStep_callbacks (t.interfere r) cfg r
    exact ⟨calls, by rw [h, hcalls, interfere_callbacks], fun hopen => absurd hopen hnone⟩
  · obtain ⟨calls, hcalls, hnone⟩ := tlsStep_callbacks (t.interfere r) cfg r
    exact ⟨calls, by rw [h, hcalls, interfere_callbacks], fun hopen => absurd hopen hnone⟩
  · rw [h]
    exact handshakeStep_callbacks (t.interfere r) cfg r
  · obtain ⟨calls, hcalls, hnone⟩ := loopStep_callbacks (t.interfere r) r
    exact ⟨calls, by rw [h, hcalls, interfere_callbacks], fun hopen => absurd hopen hnone⟩
  · exact ⟨[], by simp [h], by simp⟩

/-- Without the flag the context verifies the peer against the store. -/
theorem context_of_flag_off {opts : TLSOptions} (hnone : opts.caFile ≠ ascii "NONE")
    (hflag : opts.disableHostnameValidation = false) (handle : Nat) :
    (opts.context handle).verifyPeer = true ∧ (opts.context handle).trust = opts.store := by
  constructor
  · simp [TLSOptions.context, hnone, hflag]
  · simp [TLSOptions.context, TLSOptions.store, hnone, hflag]

theorem accepts_of_flag_on (h : cfg.tlsOpts.disableHostnameValidation = true)
    (peer : PeerCertificate) : cfg.accepts peer = true := by
  simp [ClientConfig.accepts, PeerCertificate.accepted, TLSOptions.context, h]

theorem tlsStage_of_run (htls : cfg.url.useTls = true) {rxbuf : List UInt8}
    {results : List CallResults} (h : Run (PeerStep cfg peer) (start rxbuf) results t) :
    t.TlsStage cfg peer :=
  h.invariant (fun _ _ _ hstage hstep => hstep.2 ▸ hstage.step htls hstep.1)
    (tlsStage_start rxbuf)

/-- When `onOpen_` is called, the context is there and the certificate has been accepted. -/
theorem TlsStage.of_callsOnOpen (h : t.TlsStage cfg peer) (hcalls : t.CallsOnOpen cfg r) :
    ∃ ctx, t.sslCtx = some (cfg.tlsOpts.context ctx) ∧ cfg.accepts peer = true := by
  obtain ⟨calls, hcalls, hopen⟩ := hcalls
  obtain ⟨calls', hcalls', hreader⟩ := step_callbacks t cfg r
  have hsame : calls = calls' := List.append_cancel_left (hcalls.symm.trans hcalls')
  obtain ⟨reader, hpc⟩ := hreader (hsame ▸ hopen)
  cases h with
  | secured ctx _ hctx haccepts => exact ⟨ctx, hctx, haccepts⟩
  | connecting hpc' => simp [hpc] at hpc'
  | connected hpc' | context _ hpc' | session _ _ hpc' => simp [hpc] at hpc'
  | past hpast => simp [PastOpen, isOver, hpc] at hpast

theorem opensOnlyVerified_of_flag_off {opts : TLSOptions}
    (h : opts.caFile = ascii "NONE" ∨ opts.disableHostnameValidation = false) :
    OpensOnlyVerified opts := by
  rintro cfg htls rfl peer rxbuf results bs r t - hrun hcalls
  by_cases hnone : cfg.tlsOpts.caFile = ascii "NONE"
  · exact Or.inl hnone
  · have hflag := h.resolve_left hnone
    obtain ⟨ctx, hctx, haccepts⟩ := (tlsStage_of_run htls hrun).of_callsOnOpen hcalls
    obtain ⟨hverify, htrust⟩ := context_of_flag_off hnone hflag ctx
    obtain ⟨hverify₀, htrust₀⟩ := context_of_flag_off hnone hflag 0
    have htrusted : peer.trusted cfg.tlsOpts.store = true := by
      simp only [ClientConfig.accepts, PeerCertificate.accepted, hverify₀, htrust₀, Bool.not_true,
        Bool.false_or, Bool.and_eq_true] at haccepts
      exact haccepts.1
    exact Or.inr ⟨_, hctx, hverify, htrust, htrusted⟩

/-- A run that has called `onOpen_` has a step that did. -/
theorem exists_callsOnOpen {rxbuf : List UInt8} {results : List CallResults}
    (h : Run (PeerStep cfg peer) (start rxbuf) results t) (hopen : .onOpen ∈ t.callbacks) :
    ∃ bs r u, bs ++ [r] <+: results ∧ Run (PeerStep cfg peer) (start rxbuf) bs u ∧
      u.CallsOnOpen cfg r := by
  have hstart : .onOpen ∉ (start rxbuf).callbacks := List.not_mem_nil
  obtain ⟨bs, r, u, v, hprefix, hrun, hstep, hu, hv⟩ :=
    h.exists_crossing (P := fun t => .onOpen ∈ t.callbacks) hstart hopen
  obtain ⟨calls, hcalls, -⟩ := step_callbacks u cfg r
  rw [← hstep.2, hcalls] at hv
  exact ⟨bs, r, u, hprefix, hrun, calls, hcalls, (List.mem_append.mp hv).resolve_left hu⟩

/-- Against an untrusted chain, options that keep the law never open. -/
theorem not_opened_of_untrusted (cfg : ClientConfig) (h : OpensOnlyVerified cfg.tlsOpts)
    (htls : cfg.url.useTls = true) (hnone : cfg.tlsOpts.caFile ≠ ascii "NONE")
    (huntrusted : peer.trusted cfg.tlsOpts.store = false) {rxbuf : List UInt8}
    {results : List CallResults} (hrun : Run (PeerStep cfg peer) (start rxbuf) results t) :
    .onOpen ∉ t.callbacks := by
  intro hopen
  obtain ⟨bs, r, u, hprefix, hbs, hcalls⟩ := exists_callsOnOpen hrun hopen
  rcases h cfg htls rfl peer rxbuf results bs r u hprefix hbs hcalls with hnone' | hverified
  · exact hnone hnone'
  · obtain ⟨ctx, -, -, -, htrusted⟩ := hverified
    rw [huntrusted] at htrusted
    cases htrusted

end

end WsThread

/-- The results with which a server completes both handshakes at once. -/
def Exchange.reply (cfg : ClientConfig) (x : Exchange) : CallResults :=
  ⟨some 1, some 3, .connected, true, 0, some 1, some 2, .done (), [], .done cfg.request.length,
    match x.unread with
    | c :: _ => .done c
    | [] => .closed,
    .failed, .closed, false, false⟩

namespace WsThread

variable {cfg : ClientConfig} {peer : PeerCertificate}

theorem served_reply (x : Exchange) : x.Served cfg (x.reply cfg) := by
  unfold Exchange.Served
  split
  · rfl
  · rfl
  · exact fun h => by cases h
  · rfl
  · rfl
  · rfl
  · rfl
  · exact Or.inl rfl
  · intro hmore
    refine Or.inl ⟨cfg.request.length - 1, congrArg IoResult.done ?_⟩
    omega
  · intro c hc
    cases hx : x.unread with
    | nil => simp [hx] at hc
    | cons d unread =>
      have hcd : d = c := by simpa [hx] using hc
      simp [Exchange.reply, hx, hcd]
  · trivial

theorem not_waits_reply (x : Exchange) : ¬x.Waits cfg (x.reply cfg) := by
  rintro (⟨-, h⟩ | ⟨sent, -, -, h⟩)
  · cases h
  · cases h

theorem TlsStage.allows {t : WsThread} (h : t.TlsStage cfg peer)
    (haccepts : cfg.accepts peer = true) (r : CallResults) : t.Allows peer r := by
  intro hpc _ ctx ssl hctx hssl
  cases h with
  | session ctx' ssl' _ hctx' hssl' =>
    obtain rfl := Option.some.inj (hctx'.symm.trans hctx)
    obtain rfl := Option.some.inj (hssl'.symm.trans hssl)
    exact haccepts
  | connecting hpc' => simp [hpc] at hpc'
  | connected hpc' | context _ hpc' => simp [hpc] at hpc'
  | secured _ hpc' => simp [hpc] at hpc'
  | past hpast => exact absurd hpc hpast.pc_ne.1

/-- A server whose certificate is accepted can bring the worker to `OPEN`. -/
theorem exists_opening (htls : cfg.url.useTls = true) (haccepts : cfg.accepts peer = true) :
    ∃ results t, Run (PeerStep cfg peer) (start []) results t ∧ .onOpen ∈ t.callbacks := by
  let x₀ : Exchange := ⟨start [], plainResponse cfg.digest⟩
  obtain ⟨results, hreplies⟩ := exists_replies (Exchange.step cfg) x₀ (Exchange.reply cfg)
  let run : ServedRun cfg := ⟨[], plainResponse cfg.digest, ⟨[], plainResponse_accepted cfg.digest⟩,
    results, fun k => by rw [hreplies k]; exact served_reply _⟩
  obtain ⟨k, hopened⟩ := run.opens_of_not_waits fun k => by
    change ¬(run.state k).Waits cfg (results k)
    rw [hreplies k]
    exact not_waits_reply _
  have hfollows : ∀ x r x' (t : WsThread), (x.thread = t ∧ t.TlsStage cfg peer) →
      Exchange.step cfg x r = x' →
        ∃ t', PeerStep cfg peer t r t' ∧ x'.thread = t' ∧ t'.TlsStage cfg peer := by
    rintro x r _ t ⟨rfl, hstage⟩ rfl
    have hallows := hstage.allows haccepts r
    exact ⟨_, ⟨hallows, rfl⟩, rfl, hstage.step htls hallows⟩
  have hrun := run_statesFrom (Exchange.step cfg) x₀ results k
  obtain ⟨t, hpeer, rfl, -⟩ := hrun.simulate hfollows ⟨rfl, tlsStage_start []⟩
  exact ⟨_, _, hpeer, hopened.2⟩

theorem toggled_toggled (cfg : ClientConfig) : cfg.toggled.toggled = cfg := by
  simp [ClientConfig.toggled, TLSOptions.toggled]

theorem context_toggled (hnone : cfg.tlsOpts.caFile = ascii "NONE") (handle : Nat) :
    cfg.toggled.tlsOpts.context handle = cfg.tlsOpts.context handle := by
  simp [ClientConfig.toggled, TLSOptions.toggled, TLSOptions.context, hnone]

theorem accepts_of_none (hnone : cfg.tlsOpts.caFile = ascii "NONE") (peer : PeerCertificate) :
    cfg.accepts peer = true := by
  simp [ClientConfig.accepts, PeerCertificate.accepted, TLSOptions.context, hnone]

/-- The same worker, but for the name that its `SSL` checks. -/
def SameButHost (t u : WsThread) : Prop :=
  ∃ ssl, u = { t with ssl := ssl } ∧ ssl.map Ssl.handle = t.ssl.map Ssl.handle

variable {t u : WsThread} {r : CallResults}

theorem SameButHost.callbacks_eq (h : t.SameButHost u) : u.callbacks = t.callbacks := by
  obtain ⟨ssl, rfl, -⟩ := h
  rfl

theorem SameButHost.refl (t : WsThread) : t.SameButHost t := ⟨t.ssl, rfl, rfl⟩

theorem SameButHost.freeTls (h : t.SameButHost u) :
    u.freeSsl.freeSslCtx = t.freeSsl.freeSslCtx := by
  obtain ⟨ssl, rfl, hssl⟩ := h
  have hreleased : ssl.map (fun ssl => Resource.ssl ssl.handle) =
      t.ssl.map fun ssl => Resource.ssl ssl.handle := by
    have hmap := congrArg (Option.map Resource.ssl) hssl
    simpa [Option.map_map, Function.comp_def] using hmap
  rw [freeTls_eq, freeTls_eq]
  simp only [hreleased]

theorem SameButHost.handshakeFailed (h : t.SameButHost u) (e : HandshakeFailure) :
    (t.handshakeFailed e).SameButHost (u.handshakeFailed e) := by
  obtain ⟨ssl, rfl, hssl⟩ := h
  have hfailed : ((t.fail e.message 6).setState .disconnected).SameButHost
      (({ t with ssl := ssl }.fail e.message 6).setState .disconnected) := ⟨ssl, rfl, hssl⟩
  unfold WsThread.handshakeFailed
  rw [hfailed.freeTls]
  exact SameButHost.refl _

theorem SameButHost.cleanup (h : t.SameButHost u) : t.cleanup.SameButHost u.cleanup := by
  have hfree := h.freeTls
  obtain ⟨ssl, rfl, hssl⟩ := h
  unfold WsThread.cleanup
  rw [hfree]
  by_cases hsockfd : 0 ≤ t.sockfd
  · simp only [if_pos hsockfd]
    exact SameButHost.refl _
  · simp only [if_neg hsockfd]
    split
    · exact ⟨ssl, rfl, hssl⟩
    · exact ⟨ssl, rfl, hssl⟩

theorem SameButHost.connectStep (h : t.SameButHost u) :
    (t.connectStep cfg r).SameButHost (u.connectStep cfg.toggled r) := by
  obtain ⟨ssl, rfl, hssl⟩ := h
  cases hpc : t.pc with
  | resolve =>
    simp only [WsThread.connectStep, hpc]
    cases r.getaddrinfo <;> exact ⟨ssl, rfl, hssl⟩
  | socket res =>
    simp only [WsThread.connectStep, hpc]
    cases r.socket <;> exact ⟨ssl, rfl, hssl⟩
  | connect res =>
    simp only [WsThread.connectStep, hpc]
    cases r.connect <;> exact ⟨ssl, rfl, hssl⟩
  | awaitConnect =>
    simp only [WsThread.connectStep, hpc]
    cases r.pollConnect <;> exact ⟨ssl, rfl, hssl⟩
  | socketError =>
    simp only [WsThread.connectStep, hpc]
    split <;> exact ⟨ssl, rfl, hssl⟩
  | _ =>
    simp only [WsThread.connectStep, hpc]
    exact ⟨ssl, by rw [hpc], hssl⟩

theorem SameButHost.tlsStep (h : t.SameButHost u) (hnone : cfg.tlsOpts.caFile = ascii "NONE") :
    (t.tlsStep cfg r).SameButHost (u.tlsStep cfg.toggled r) := by
  have hfree := h.freeTls
  obtain ⟨ssl, rfl, hssl⟩ := h
  cases hpc : t.pc with
  | sslCtxNew =>
    simp only [WsThread.tlsStep, hpc, context_toggled hnone]
    cases r.sslCtxNew <;> exact ⟨ssl, rfl, hssl⟩
  | sslNew =>
    simp only [WsThread.tlsStep, hpc]
    cases r.sslNew with
    | none => exact ⟨ssl, rfl, hssl⟩
    | some handle => exact ⟨some (cfg.toggled.session handle), rfl, rfl⟩
  | sslConnect =>
    simp only [hpc] at hfree
    simp only [WsThread.tlsStep, hpc]
    cases r.sslConnect with
    | done => exact ⟨ssl, rfl, hssl⟩
    | closed | failed =>
      simp only [hfree]
      exact SameButHost.refl _
  | _ =>
    simp only [WsThread.tlsStep, hpc]
    exact ⟨ssl, by rw [hpc], hssl⟩

theorem SameButHost.handshakeStep (h : t.SameButHost u) :
    (t.handshakeStep cfg r).SameButHost (u.handshakeStep cfg.toggled r) := by
  have hfailed := h.handshakeFailed
  obtain ⟨ssl, rfl, hssl⟩ := h
  have hrequest : cfg.toggled.request = cfg.request := rfl
  have haccept : cfg.toggled.expectedAccept = cfg.expectedAccept := rfl
  cases hpc : t.pc with
  | sendRequest sent =>
    simp only [hpc] at hfailed
    simp only [WsThread.handshakeStep, hpc, hrequest]
    split
    · split
      · exact ⟨ssl, rfl, hssl⟩
      · exact hfailed _
    · exact ⟨ssl, rfl, hssl⟩
  | readResponse reader =>
    simp only [hpc] at hfailed
    simp only [WsThread.handshakeStep, hpc, haccept]
    split
    · split
      · exact ⟨ssl, rfl, hssl⟩
      · exact ⟨ssl, rfl, hssl⟩
      · exact hfailed _
    · exact hfailed _
  | _ =>
    simp only [WsThread.handshakeStep, hpc]
    exact ⟨ssl, by rw [hpc], hssl⟩

theorem SameButHost.receive (h : t.SameButHost u) (bytes : List UInt8) :
    (t.receive bytes).SameButHost (u.receive bytes) := by
  obtain ⟨ssl, rfl, hssl⟩ := h
  have hreceiving : { t with ssl := ssl }.receiving bytes = t.receiving bytes := rfl
  unfold WsThread.receive
  rw [hreceiving]
  cases processFrame (t.receiving bytes) with
  | returned rx => exact ⟨ssl, rfl, hssl⟩
  | outside => exact ⟨ssl, rfl, hssl⟩
  | spinning => exact ⟨ssl, rfl, hssl⟩

theorem SameButHost.loopStep (h : t.SameButHost u) :
    (t.loopStep r).SameButHost (u.loopStep r) := by
  have hcleanup := h.cleanup
  have hreceive := h.receive
  obtain ⟨ssl, rfl, hssl⟩ := h
  have htls : ssl.isSome = t.ssl.isSome := by
    have hmap := congrArg Option.isSome hssl
    simpa using hmap
  cases hpc : t.pc with
  | loop =>
    simp only [hpc] at hcleanup
    simp only [WsThread.loopStep, hpc]
    split
    · exact ⟨ssl, rfl, hssl⟩
    · exact hcleanup
  | poll =>
    simp only [hpc] at hcleanup
    simp only [WsThread.loopStep, hpc]
    cases r.poll with
    | interrupted => exact ⟨ssl, rfl, hssl⟩
    | failed => exact hcleanup
    | ready pollin pollout => exact ⟨ssl, rfl, hssl⟩
  | read =>
    simp only [hpc] at hcleanup hreceive
    simp only [WsThread.loopStep, hpc, htls]
    cases r.read with
    | done bytes => exact hreceive bytes
    | closed => exact hcleanup
    | failed errno sslError =>
      dsimp only
      split
      · exact ⟨ssl, rfl, hssl⟩
      · exact hcleanup
  | _ =>
    simp only [WsThread.loopStep, hpc]
    exact ⟨ssl, by rw [hpc], hssl⟩

/-- With certificate verification off anyway, the flag makes no difference to a step. -/
theorem SameButHost.step (h : t.SameButHost u) (hnone : cfg.tlsOpts.caFile = ascii "NONE")
    (r : CallResults) : (t.step cfg r).SameButHost (u.step cfg.toggled r) := by
  have hinterfere : (t.interfere r).SameButHost (u.interfere r) := by
    obtain ⟨ssl, rfl, hssl⟩ := h
    exact ⟨ssl, rfl, hssl⟩
  have hpc : (u.interfere r).pc = (t.interfere r).pc := by
    obtain ⟨ssl, hu, -⟩ := hinterfere
    rw [hu]
  rw [step_eq, step_eq, hpc]
  split
  · exact hinterfere.connectStep
  · exact hinterfere.connectStep
  · exact hinterfere.connectStep
  · exact hinterfere.connectStep
  · exact hinterfere.connectStep
  · exact hinterfere.tlsStep hnone
  · exact hinterfere.tlsStep hnone
  · exact hinterfere.tlsStep hnone
  · exact hinterfere.handshakeStep
  · exact hinterfere.handshakeStep
  · exact hinterfere.loopStep
  · exact hinterfere.loopStep
  · exact hinterfere.loopStep
  · exact hinterfere
  · exact hinterfere
  · exact hinterfere

theorem Yields.toggled (htls : cfg.url.useTls = true) (hnone : cfg.tlsOpts.caFile = ascii "NONE")
    {rxbuf : List UInt8} {results : List CallResults} {calls : List Callback}
    (h : Yields cfg peer rxbuf results calls) : Yields cfg.toggled peer rxbuf results calls := by
  obtain ⟨t, hrun, rfl⟩ := h
  have hnone' : cfg.toggled.tlsOpts.caFile = ascii "NONE" := hnone
  have haccepts := accepts_of_none hnone' peer
  have hfollows : ∀ t r t' (u : WsThread), (t.SameButHost u ∧ u.TlsStage cfg.toggled peer) →
      PeerStep cfg peer t r t' →
        ∃ u', PeerStep cfg.toggled peer u r u' ∧ t'.SameButHost u' ∧
          u'.TlsStage cfg.toggled peer := by
    rintro t r _ u ⟨hsame, hstage⟩ ⟨-, rfl⟩
    have hallows := hstage.allows haccepts r
    exact ⟨_, ⟨hallows, rfl⟩, hsame.step hnone r, hstage.step htls hallows⟩
  obtain ⟨u, hrun', hsame, -⟩ := hrun.simulate hfollows ⟨SameButHost.refl _, tlsStage_start rxbuf⟩
  exact ⟨u, hrun', hsame.callbacks_eq⟩

theorem flagKeepsChain_of_none {opts : TLSOptions} (hnone : opts.caFile = ascii "NONE") :
    FlagKeepsChain opts := by
  rintro cfg htls rfl peer - rxbuf results calls
  constructor
  · exact Yields.toggled htls hnone
  · intro h
    have htls' : cfg.toggled.url.useTls = true := htls
    have hback := h.toggled htls' hnone
    rwa [toggled_toggled] at hback

end WsThread

/-- A certificate of which nothing is in order. -/
def untrustedPeer : PeerCertificate := ⟨fun _ => false, fun _ => false⟩

namespace WsThread

variable {opts : TLSOptions}

theorem not_opensOnlyVerified (hnone : opts.caFile ≠ ascii "NONE")
    (hflag : opts.disableHostnameValidation = true) : ¬OpensOnlyVerified opts := by
  intro hverified
  obtain ⟨results, t, hrun, hopen⟩ :=
    @exists_opening (configWith opts) untrustedPeer rfl (accepts_of_flag_on hflag untrustedPeer)
  exact not_opened_of_untrusted (configWith opts) hverified rfl hnone rfl hrun hopen

/-- With the flag an untrusted chain opens, without it the same results cannot be. -/
theorem yields_with_flag_only (hnone : opts.caFile ≠ ascii "NONE")
    (hflag : opts.disableHostnameValidation = true) : ∃ results calls,
      Yields (configWith opts) untrustedPeer [] results calls ∧
        ¬Yields (configWith opts.toggled) untrustedPeer [] results calls := by
  obtain ⟨results, t, hrun, hopen⟩ :=
    @exists_opening (configWith opts) untrustedPeer rfl (accepts_of_flag_on hflag untrustedPeer)
  refine ⟨results, t.callbacks, ⟨t, hrun, rfl⟩, ?_⟩
  rintro ⟨u, hrun', hcalls⟩
  have hverified : OpensOnlyVerified opts.toggled :=
    opensOnlyVerified_of_flag_off (Or.inr (by simp [TLSOptions.toggled, hflag]))
  have hclosed :=
    not_opened_of_untrusted (configWith opts.toggled) hverified rfl hnone rfl hrun'
  rw [hcalls] at hclosed
  exact hclosed hopen

theorem not_flagKeepsChain (hnone : opts.caFile ≠ ascii "NONE") : ¬FlagKeepsChain opts := by
  intro hkeeps
  have hsame := hkeeps (configWith opts) rfl rfl untrustedPeer rfl []
  cases hflag : opts.disableHostnameValidation with
  | true =>
    obtain ⟨results, calls, hyields, hnot⟩ := yields_with_flag_only hnone hflag
    exact hnot ((hsame results calls).mp hyields)
  | false =>
    have hnone' : opts.toggled.caFile ≠ ascii "NONE" := hnone
    have hflag' : opts.toggled.disableHostnameValidation = true := by
      simp [TLSOptions.toggled, hflag]
    obtain ⟨results, calls, hyields, hnot⟩ := yields_with_flag_only hnone' hflag'
    have hback : opts.toggled.toggled = opts := by simp [TLSOptions.toggled]
    rw [hback] at hnot
    exact hnot ((hsame results calls).mpr hyields)

/-- Only a verified chain is opened if and only if the flag is off or there is no CA to
verify with; and the flag leaves chains alone in the latter case only. -/
theorem chain_verification_iff (opts : TLSOptions) :
    (OpensOnlyVerified opts ↔
      opts.caFile = ascii "NONE" ∨ opts.disableHostnameValidation = false) ∧
    (FlagKeepsChain opts ↔ opts.caFile = ascii "NONE") := by
  constructor
  · refine ⟨fun h => ?_, opensOnlyVerified_of_flag_off⟩
    by_contra hnot
    obtain ⟨hnone, hflag⟩ := not_or.mp hnot
    exact not_opensOnlyVerified hnone (Bool.eq_true_of_not_eq_false hflag) h
  · refine ⟨fun h => ?_, flagKeepsChain_of_none⟩
    by_contra hnone
    exact not_flagKeepsChain hnone h

/-- Without host name validation, the system store is not consulted either. -/
theorem disabled_hostname_skips_chain :
    ¬∀ opts : TLSOptions, OpensOnlyVerified opts ∧ FlagKeepsChain opts := by
  intro hall
  have hnone : (⟨ascii "SYSTEM", [], [], true⟩ : TLSOptions).caFile ≠ ascii "NONE" := by decide
  exact not_opensOnlyVerified hnone rfl (hall ⟨ascii "SYSTEM", [], [], true⟩).1

end WsThread

end ModAudioStream
