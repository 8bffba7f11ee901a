import ModAudioStream.RecvProgress
import ModAudioStream.ThreadFunc

namespace ModAudioStream

/-- At this head the iteration reaches outside the buffer, or erases nothing and comes again. -/
def Receiver.Derails (s : Receiver) (h : Head) : Prop :=
  PastLengthTest s h ∧ ((s.touchesPayload h = true ∧ s.rxbuf.length < h.headerSize + h.N) ∨
    (h.opcode ≠ 0x8 ∧ sizeT (h.headerSize + h.N) = 0))

theorem Visits.cases_head {r s : Receiver} (h : Visits r s) :
    s = r ∨ ∃ t, frameStep r = .next t ∧ Visits t s := by
  induction h with
  | start => exact Or.inl rfl
  | next _ hstep hne ih =>
    rcases ih with rfl | ⟨t, ht, hv⟩
    · exact Or.inr ⟨_, hstep, Visits.start hne⟩
    · exact Or.inr ⟨t, ht, Visits.next hv hstep hne⟩

theorem processLoop_returns_of_not_derails (fuel : Nat) {r : Receiver} (hf : r.rxbuf.length < fuel)
    (h : ∀ s hd, Visits r s → ¬s.Derails hd) : ∃ r', processLoop fuel r = .returned r' := by
  induction fuel generalizing r with
  | zero => omega
  | succ fuel ih =>
    unfold processLoop
    by_cases he : r.rxbuf.isEmpty
    · exact ⟨r, by rw [if_pos he]⟩
    · have hne : r.rxbuf ≠ [] := fun hnil => he (List.isEmpty_iff.mpr hnil)
      rw [if_neg he]
      by_cases hpast : ∃ hd, PastLengthTest r hd
      · obtain ⟨hd, hpast⟩ := hpast
        have hnot := h r hd (Visits.start hne)
        have hstep := frameStep_of_past hpast
        rw [if_neg (fun hout => hnot ⟨hpast, Or.inl hout⟩)] at hstep
        by_cases ho : hd.opcode = 0x8
        · rw [if_pos ho] at hstep
          exact ⟨_, by rw [hstep]⟩
        · rw [if_neg ho] at hstep
          have hpos : sizeT (hd.headerSize + hd.N) ≠ 0 := fun hz => hnot ⟨hpast, Or.inr ⟨ho, hz⟩⟩
          have hlen : 0 < r.rxbuf.length := List.length_pos_iff.mpr hne
          rw [hstep]
          refine ih ?_ fun s hd' hv => h s hd' (hv.head hne hstep)
          simp only [List.length_drop]
          omega
      · rw [frameStep_of_not_past fun hd hh => hpast ⟨hd, hh⟩]
        exact ⟨r, rfl⟩

theorem not_derails_of_returns (fuel : Nat) {r r' : Receiver}
    (h : processLoop fuel r = .returned r') : ∀ s hd, Visits r s → ¬s.Derails hd := by
  induction fuel generalizing r with
  | zero => cases h
  | succ fuel ih =>
    intro s hd hv hderails
    have hne : r.rxbuf ≠ [] := by
      rcases hv.cases_head with rfl | ⟨t, ht, -⟩
      · exact rxbuf_ne_nil_of_readHead hderails.1.1
      · obtain ⟨hd', hpast, -⟩ := frameStep_next ht
        exact rxbuf_ne_nil_of_readHead hpast.1
    unfold processLoop at h
    rw [if_neg (by simpa using hne)] at h
    rcases hv.cases_head with rfl | ⟨t, ht, hv⟩
    · obtain ⟨hpast, hcase⟩ := hderails
      have hstep := frameStep_of_past hpast
      by_cases hout : s.touchesPayload hd = true ∧ s.rxbuf.length < hd.headerSize + hd.N
      · rw [if_pos hout] at hstep
        rw [hstep] at h
        cases h
      · obtain ⟨ho, hz⟩ := hcase.resolve_left hout
        rw [if_neg hout, if_neg ho, hz, List.drop_zero] at hstep
        rw [hstep] at h
        -- the next iteration finds the same head
        exact ih h _ hd (Visits.start hne) ⟨hpast, Or.inr ⟨ho, hz⟩⟩
    · rw [ht] at h
      exact ih h s hd hv hderails

theorem processFrame_returns_iff {r : Receiver} :
    (∃ r', processFrame r = .returned r') ↔ ∀ s hd, Visits r s → ¬s.Derails hd := by
  constructor
  · rintro ⟨r', h⟩
    exact not_derails_of_returns _ h
  · exact processLoop_returns_of_not_derails _ (Nat.lt_succ_self _)

def Callback.isReceived : Callback → Bool
  | .onMessage _ => true
  | .onBinary _ => true
  | _ => false

/-- The callbacks of a run of `threadFunc`, from its beginning to its end. -/
inductive Complete : List Callback → Prop
  | refused (code : Nat) (msg : List UInt8) (closeCode : Nat) (reason : List UInt8) :
      Complete [.onError code msg, .onClose closeCode reason]
  | served {received : List Callback} (h : ∀ c ∈ received, c.isReceived = true) (code : Nat)
      (reason : List UInt8) : Complete (.onOpen :: received ++ [.onClose code reason])

namespace WsThread

/-- Nothing is held, and what was obtained has been released once. -/
structure Released (t : WsThread) : Prop where
  sockfd : t.sockfd = -1
  sslCtx : t.sslCtx = none
  ssl : t.ssl = none
  once : t.obtained.Nodup
  all : t.released.Perm t.obtained

/-- A run that is over has made the callbacks of a whole run, any other the first of them, and
when `threadFunc` returns everything is released. -/
structure Protocol (t : WsThread) : Prop where
  complete : t.isOver = true → Complete t.callbacks
  begun : ∃ more, Complete (t.callbacks ++ more)
  released : t.pc = .returned → t.Released

/-- The step uses the null pointer that `SSL_new` gives, or `processFrame` does not return
from a frame whose length wraps around. -/
def Derails (t : WsThread) (r : CallResults) : Prop :=
  (t.pc = .sslNew ∧ r.sslNew = none) ∨
    (t.pc = .read ∧ ∃ bytes, r.read = .done bytes ∧
      ∃ s h, Visits ((t.interfere r).receiving bytes) s ∧ s.Derails h)

/-- The resources of the TLS connection. -/
def tlsHeld (t : WsThread) : List Resource :=
  (t.sslCtx.map fun ctx => .sslCtx ctx.handle).toList ++
    (t.ssl.map fun ssl => .ssl ssl.handle).toList

/-- The worker has a socket, and what `SSL_CTX_new` and `SSL_new` gave. -/
def Linked (t : WsThread) : Prop :=
  ∃ res fd : Nat, t.sockfd = fd ∧ t.released = [.addrinfo res] ∧
    t.obtained = .addrinfo res :: .socket fd :: t.tlsHeld

/-- What the worker holds and has called back, by where it is. -/
inductive Stage (t : WsThread) : Prop
  | resolve (hpc : t.pc = .resolve) (hsockfd : t.sockfd = -1) (hctx : t.sslCtx = none)
      (hssl : t.ssl = none) (hobtained : t.obtained = []) (hreleased : t.released = [])
      (hcalls : t.callbacks = [])
  | socket (res : Nat) (hpc : t.pc = .socket res) (hsockfd : t.sockfd = -1)
      (hctx : t.sslCtx = none) (hssl : t.ssl = none) (hobtained : t.obtained = [.addrinfo res])
      (hreleased : t.released = []) (hcalls : t.callbacks = [])
  | connect (res fd : Nat) (hpc : t.pc = .connect res) (hsockfd : t.sockfd = fd)
      (hctx : t.sslCtx = none) (hssl : t.ssl = none)
      (hobtained : t.obtained = [.addrinfo res, .socket fd]) (hreleased : t.released = [])
      (hcalls : t.callbacks = [])
  | plain (hpc : t.pc = .awaitConnect ∨ t.pc = .socketError ∨ t.pc = .sslCtxNew)
      (hlinked : t.Linked) (hctx : t.sslCtx = none) (hssl : t.ssl = none)
      (hcalls : t.callbacks = [])
  | context (hpc : t.pc = .sslNew) (hlinked : t.Linked) (hssl : t.ssl = none)
      (hcalls : t.callbacks = [])
  | handshake (hpc : t.pc = .sslConnect ∨ (∃ sent, t.pc = .sendRequest sent) ∨
      ∃ reader, t.pc = .readResponse reader) (hlinked : t.Linked) (hcalls : t.callbacks = [])
  | opened (hpc : t.pc = .loop ∨ t.pc = .poll ∨ t.pc = .read) (hlinked : t.Linked)
      (received : List Callback) (hreceived : ∀ c ∈ received, c.isReceived = true)
      (hcalls : t.callbacks = .onOpen :: received)
  | returned (hpc : t.pc = .returned) (hreleased : t.Released) (hcomplete : Complete t.callbacks)

/-- The worker goes no further, and owes its callbacks. -/
structure Stuck (t : WsThread) : Prop where
  pc : t.pc = .crashed ∨ t.pc = .spinning
  callbacks : t.callbacks = [] ∨ ∃ received : List Callback,
    (∀ c ∈ received, c.isReceived = true) ∧ t.callbacks = .onOpen :: received

section

variable {t : WsThread} {r : CallResults} {cfg : ClientConfig}

theorem not_complete_of_opened {received : List Callback}
    (h : ∀ c ∈ received, c.isReceived = true) : ¬Complete (.onOpen :: received) := by
  intro hcomplete
  generalize hcalls : Callback.onOpen :: received = calls at hcomplete
  cases hcomplete with
  | refused => cases hcalls
  | @served others hothers code reason =>
    have hlast : Callback.onClose code reason ∈ received := by
      rw [(List.cons.inj hcalls).2]
      simp
    have hclose := h _ hlast
    cases hclose

theorem freeTls_eq (t : WsThread) : t.freeSsl.freeSslCtx =
    { t with
      sslCtx := none
      ssl := none
      released := t.released ++ ((t.ssl.map fun ssl => Resource.ssl ssl.handle).toList ++
        (t.sslCtx.map fun ctx => Resource.sslCtx ctx.handle).toList) } := by
  obtain ⟨pc, sockfd, sslCtx, ssl, rx, obtained, released, callbacks⟩ := t
  cases ssl <;> cases sslCtx <;> simp [freeSsl, freeSslCtx, release]

/-- Everything is released once the socket is closed. -/
theorem Linked.released (h : t.Linked) : t.freeSsl.freeSslCtx.closeSocket.Released := by
  obtain ⟨res, fd, hsockfd, hreleased, hobtained⟩ := h
  rw [freeTls_eq]
  refine ⟨rfl, rfl, rfl, ?_, ?_⟩
  · change t.obtained.Nodup
    rw [hobtained, tlsHeld]
    cases t.sslCtx <;> cases t.ssl <;> simp
  · change (t.released ++ _ ++ [Resource.socket t.sockfd.toNat]).Perm t.obtained
    rw [hobtained, hreleased, hsockfd, tlsHeld, Int.toNat_natCast, List.append_assoc]
    exact (List.perm_append_comm.trans (List.perm_append_comm.append_left [_])).cons _

theorem freeTls_of_none (hctx : t.sslCtx = none) (hssl : t.ssl = none) :
    t.freeSsl.freeSslCtx = t := by
  simp [freeSsl, freeSslCtx, hctx, hssl]

theorem stage_abort (h : t.Linked) (hcalls : t.callbacks = []) (msg : List UInt8) (code : Nat)
    (reason : List UInt8) : (t.freeSsl.freeSslCtx.abort msg code reason).Stage := by
  have hreleased := h.released
  refine .returned rfl ⟨hreleased.sockfd, hreleased.sslCtx, hreleased.ssl, hreleased.once,
    hreleased.all⟩ ?_
  have hfree : t.freeSsl.freeSslCtx.callbacks = t.callbacks := by rw [freeTls_eq]
  change Complete (t.freeSsl.freeSslCtx.callbacks ++ [_] ++ [_])
  rw [hfree, hcalls]
  exact .refused code msg 1006 reason

/-- The same before there is anything of TLS. -/
theorem stage_abort_plain (h : t.Linked) (hctx : t.sslCtx = none) (hssl : t.ssl = none)
    (hcalls : t.callbacks = []) (msg : List UInt8) (code : Nat) (reason : List UInt8) :
    (t.abort msg code reason).Stage := by
  have hstage := stage_abort h hcalls msg code reason
  rwa [freeTls_of_none hctx hssl] at hstage

theorem stage_handshakeFailed (h : t.Linked) (hcalls : t.callbacks = [])
    (e : HandshakeFailure) : (t.handshakeFailed e).Stage := by
  have hlinked : ((t.fail e.message 6).setState .disconnected).Linked := h
  have hreleased := hlinked.released
  refine .returned rfl ⟨hreleased.sockfd, hreleased.sslCtx, hreleased.ssl, hreleased.once,
    hreleased.all⟩ ?_
  have hfree := congrArg callbacks (freeTls_eq ((t.fail e.message 6).setState .disconnected))
  change Complete (((t.fail e.message 6).setState .disconnected).freeSsl.freeSslCtx.callbacks ++
    [_])
  rw [hfree]
  change Complete (t.callbacks ++ [_] ++ [_])
  rw [hcalls]
  exact .refused 6 e.message 1002 _

theorem stage_cleanup (h : t.Linked) {received : List Callback}
    (hreceived : ∀ c ∈ received, c.isReceived = true)
    (hcalls : t.callbacks = .onOpen :: received) : t.cleanup.Stage := by
  have hopen : 0 ≤ t.sockfd := by
    obtain ⟨res, fd, hsockfd, -⟩ := h
    omega
  have hreleased := h.released
  have hfree : t.freeSsl.freeSslCtx.closeSocket.callbacks = .onOpen :: received := by
    rw [freeTls_eq, ← hcalls]
    rfl
  unfold cleanup
  simp only [if_pos hopen]
  split
  · refine .returned rfl ⟨hreleased.sockfd, hreleased.sslCtx, hreleased.ssl, hreleased.once,
      hreleased.all⟩ ?_
    change Complete (t.freeSsl.freeSslCtx.closeSocket.callbacks ++ [_])
    rw [hfree]
    exact .served hreceived _ _
  · refine .returned rfl ⟨hreleased.sockfd, hreleased.sslCtx, hreleased.ssl, hreleased.once,
      hreleased.all⟩ ?_
    change Complete (t.freeSsl.freeSslCtx.closeSocket.callbacks ++ [_])
    rw [hfree]
    exact .served hreceived _ _

theorem isReceived_callbacks {out : List Reaction} :
    ∀ c ∈ out.filterMap Reaction.callback, c.isReceived = true := by
  intro c hc
  obtain ⟨reaction, -, hreaction⟩ := List.mem_filterMap.mp hc
  cases reaction with
  | message msg =>
    obtain rfl := Option.some.inj hreaction
    rfl
  | binary data =>
    obtain rfl := Option.some.inj hreaction
    rfl
  | pong payload => cases hreaction

theorem stage_receive (h : t.Linked) {received : List Callback}
    (hreceived : ∀ c ∈ received, c.isReceived = true)
    (hcalls : t.callbacks = .onOpen :: received) {bytes : List UInt8}
    (hreturns : ∃ rx, processFrame (t.receiving bytes) = .returned rx) :
    (t.receive bytes).Stage := by
  obtain ⟨rx, hrx⟩ := hreturns
  unfold receive
  rw [hrx]
  refine .opened (Or.inl rfl) h (received ++ rx.out.filterMap Reaction.callback) ?_ ?_
  · intro c hc
    rcases List.mem_append.mp hc with hc | hc
    · exact hreceived c hc
    · exact isReceived_callbacks c hc
  · change t.callbacks ++ _ = _
    rw [hcalls]
    rfl

theorem stuck_receive {received : List Callback}
    (hreceived : ∀ c ∈ received, c.isReceived = true)
    (hcalls : t.callbacks = .onOpen :: received) {bytes : List UInt8}
    (hlost : ¬∃ rx, processFrame (t.receiving bytes) = .returned rx) :
    (t.receive bytes).Stuck := by
  unfold receive
  cases hout : processFrame (t.receiving bytes) with
  | returned rx => exact absurd ⟨rx, hout⟩ hlost
  | outside => exact ⟨Or.inl rfl, Or.inr ⟨received, hreceived, hcalls⟩⟩
  | spinning => exact ⟨Or.inr rfl, Or.inr ⟨received, hreceived, hcalls⟩⟩

/-- What another thread stores changes none of this. -/
theorem Stage.interfere (h : t.Stage) (r : CallResults) : (t.interfere r).Stage := by
  cases h with
  | resolve hpc hsockfd hctx hssl hobtained hreleased hcalls =>
    exact .resolve hpc hsockfd hctx hssl hobtained hreleased hcalls
  | socket res hpc hsockfd hctx hssl hobtained hreleased hcalls =>
    exact .socket res hpc hsockfd hctx hssl hobtained hreleased hcalls
  | connect res fd hpc hsockfd hctx hssl hobtained hreleased hcalls =>
    exact .connect res fd hpc hsockfd hctx hssl hobtained hreleased hcalls
  | plain hpc hlinked hctx hssl hcalls => exact .plain hpc hlinked hctx hssl hcalls
  | context hpc hlinked hssl hcalls => exact .context hpc hlinked hssl hcalls
  | handshake hpc hlinked hcalls => exact .handshake hpc hlinked hcalls
  | opened hpc hlinked received hreceived hcalls =>
    exact .opened hpc hlinked received hreceived hcalls
  | returned hpc hreleased hcomplete =>
    exact .returned hpc ⟨hreleased.sockfd, hreleased.sslCtx, hreleased.ssl, hreleased.once,
      hreleased.all⟩ hcomplete

theorem stage_afterConnect (h : t.Linked) (hctx : t.sslCtx = none) (hssl : t.ssl = none)
    (hcalls : t.callbacks = []) : (t.afterConnect cfg).Stage := by
  by_cases htls : cfg.url.useTls = true
  · exact .plain (Or.inr (Or.inr (if_pos htls))) h hctx hssl hcalls
  · exact .handshake (Or.inr (Or.inl ⟨0, if_neg htls⟩)) h hcalls

theorem stage_resolve (hpc : t.pc = .resolve) (hsockfd : t.sockfd = -1) (hctx : t.sslCtx = none)
    (hssl : t.ssl = none) (hobtained : t.obtained = []) (hreleased : t.released = [])
    (hcalls : t.callbacks = []) : (t.connectStep cfg r).Stage := by
  simp only [connectStep, hpc]
  split
  · refine .returned rfl ⟨hsockfd, hctx, hssl, ?_, ?_⟩ ?_
    · change t.obtained.Nodup
      rw [hobtained]
      exact List.nodup_nil
    · change t.released.Perm t.obtained
      rw [hobtained, hreleased]
    · change Complete (t.callbacks ++ [_] ++ [_])
      rw [hcalls]
      exact .refused _ _ _ _
  · refine .socket _ rfl hsockfd hctx hssl ?_ hreleased hcalls
    change t.obtained ++ [_] = _
    rw [hobtained, List.nil_append]

theorem stage_socket {res : Nat} (hpc : t.pc = .socket res) (hsockfd : t.sockfd = -1)
    (hctx : t.sslCtx = none) (hssl : t.ssl = none) (hobtained : t.obtained = [.addrinfo res])
    (hreleased : t.released = []) (hcalls : t.callbacks = []) :
    (t.connectStep cfg r).Stage := by
  simp only [connectStep, hpc]
  split
  · refine .returned rfl ⟨hsockfd, hctx, hssl, ?_, ?_⟩ ?_
    · change t.obtained.Nodup
      rw [hobtained]
      exact List.nodup_singleton _
    · change (t.released ++ [_]).Perm t.obtained
      rw [hobtained, hreleased, List.nil_append]
    · change Complete (t.callbacks ++ [_] ++ [_])
      rw [hcalls]
      exact .refused _ _ _ _
  · refine .connect _ _ rfl rfl hctx hssl ?_ hreleased hcalls
    change t.obtained ++ [_] = _
    rw [hobtained]
    rfl

theorem stage_connect {res fd : Nat} (hpc : t.pc = .connect res) (hsockfd : t.sockfd = fd)
    (hctx : t.sslCtx = none) (hssl : t.ssl = none)
    (hobtained : t.obtained = [.addrinfo res, .socket fd]) (hreleased : t.released = [])
    (hcalls : t.callbacks = []) : (t.connectStep cfg r).Stage := by
  have hlinked : (t.release (.addrinfo res)).Linked := by
    refine ⟨res, fd, hsockfd, ?_, ?_⟩
    · change t.released ++ [_] = _
      rw [hreleased, List.nil_append]
    · change t.obtained = _
      rw [hobtained]
      simp [tlsHeld, release, hctx, hssl]
  simp only [connectStep, hpc]
  split
  · exact stage_afterConnect hlinked hctx hssl hcalls
  · exact .plain (Or.inl rfl) hlinked hctx hssl hcalls
  · exact stage_abort_plain hlinked hctx hssl hcalls _ _ _

theorem stage_awaitConnect (hpc : t.pc = .awaitConnect) (hlinked : t.Linked)
    (hctx : t.sslCtx = none) (hssl : t.ssl = none) (hcalls : t.callbacks = []) :
    (t.connectStep cfg r).Stage := by
  simp only [connectStep, hpc]
  split
  · exact .plain (Or.inr (Or.inl rfl)) hlinked hctx hssl hcalls
  · exact stage_abort_plain hlinked hctx hssl hcalls _ _ _

theorem stage_socketError (hpc : t.pc = .socketError) (hlinked : t.Linked)
    (hctx : t.sslCtx = none) (hssl : t.ssl = none) (hcalls : t.callbacks = []) :
    (t.connectStep cfg r).Stage := by
  simp only [connectStep, hpc]
  split
  · exact stage_afterConnect hlinked hctx hssl hcalls
  · exact stage_abort_plain hlinked hctx hssl hcalls _ _ _

theorem stage_sslCtxNew (hpc : t.pc = .sslCtxNew) (hlinked : t.Linked) (hctx : t.sslCtx = none)
    (hssl : t.ssl = none) (hcalls : t.callbacks = []) : (t.tlsStep cfg r).Stage := by
  simp only [tlsStep, hpc]
  split
  · exact stage_abort_plain hlinked hctx hssl hcalls _ _ _
  next ctx _ =>
    obtain ⟨res, fd, hsockfd, hreleased, hobtained⟩ := hlinked
    refine .context rfl ⟨res, fd, hsockfd, hreleased, ?_⟩ hssl hcalls
    change t.obtained ++ [_] = _
    rw [hobtained]
    simp [tlsHeld, hctx, hssl, obtain, TLSOptions.context]

theorem stage_sslNew (hpc : t.pc = .sslNew) (hlinked : t.Linked) (hssl : t.ssl = none)
    (hcalls : t.callbacks = []) {ssl : Nat} (hnew : r.sslNew = some ssl) :
    (t.tlsStep cfg r).Stage := by
  obtain ⟨res, fd, hsockfd, hreleased, hobtained⟩ := hlinked
  simp only [tlsStep, hpc, hnew]
  refine .handshake (Or.inl rfl) ⟨res, fd, hsockfd, hreleased, ?_⟩ hcalls
  change t.obtained ++ [_] = _
  rw [hobtained]
  simp [tlsHeld, hssl, obtain, ClientConfig.session]

theorem stage_sslConnect (hpc : t.pc = .sslConnect) (hlinked : t.Linked)
    (hcalls : t.callbacks = []) : (t.tlsStep cfg r).Stage := by
  simp only [tlsStep, hpc]
  split
  · exact .handshake (Or.inr (Or.inl ⟨0, rfl⟩)) hlinked hcalls
  · exact stage_abort hlinked hcalls _ _ _

theorem stage_sendRequest {sent : Nat} (hpc : t.pc = .sendRequest sent) (hlinked : t.Linked)
    (hcalls : t.callbacks = []) : (t.handshakeStep cfg r).Stage := by
  simp only [handshakeStep, hpc]
  split
  · split
    · exact .handshake (Or.inr (Or.inl ⟨_, rfl⟩)) hlinked hcalls
    · exact stage_handshakeFailed hlinked hcalls _
  · exact .handshake (Or.inr (Or.inr ⟨_, rfl⟩)) hlinked hcalls

theorem stage_readResponse {reader : ResponseReader} (hpc : t.pc = .readResponse reader)
    (hlinked : t.Linked) (hcalls : t.callbacks = []) : (t.handshakeStep cfg r).Stage := by
  simp only [handshakeStep, hpc]
  split
  · split
    · exact .handshake (Or.inr (Or.inr ⟨_, rfl⟩)) hlinked hcalls
    · refine .opened (Or.inl rfl) hlinked [] (fun c hc => by cases hc) ?_
      change t.callbacks ++ [_] = _
      rw [hcalls]
      rfl
    · exact stage_handshakeFailed hlinked hcalls _
  · exact stage_handshakeFailed hlinked hcalls _

theorem stage_loopStep (hpc : t.pc = .loop ∨ t.pc = .poll ∨ t.pc = .read) (hlinked : t.Linked)
    {received : List Callback} (hreceived : ∀ c ∈ received, c.isReceived = true)
    (hcalls : t.callbacks = .onOpen :: received)
    (hreturns : t.pc = .read → ∀ bytes, r.read = .done bytes →
      ∃ rx, processFrame (t.receiving bytes) = .returned rx) : (t.loopStep r).Stage := by
  have hcleanup := stage_cleanup hlinked hreceived hcalls
  rcases hpc with hpc | hpc | hpc
  · simp only [loopStep, hpc]
    split
    · exact .opened (Or.inr (Or.inl rfl)) hlinked received hreceived hcalls
    · exact hcleanup
  · simp only [loopStep, hpc]
    split
    · exact .opened (Or.inl rfl) hlinked received hreceived hcalls
    · exact hcleanup
    next pollin _ _ =>
      cases pollin with
      | true => exact .opened (Or.inr (Or.inr rfl)) hlinked received hreceived hcalls
      | false => exact .opened (Or.inl rfl) hlinked received hreceived hcalls
  · simp only [loopStep, hpc]
    split
    next bytes hread => exact stage_receive hlinked hreceived hcalls (hreturns hpc bytes hread)
    · exact hcleanup
    · split
      · exact .opened (Or.inl rfl) hlinked received hreceived hcalls
      · exact hcleanup

theorem step_eq (t : WsThread) (cfg : ClientConfig) (r : CallResults) :
    t.step cfg r = match (t.interfere r).pc with
      | .resolve | .socket _ | .connect _ | .awaitConnect | .socketError =>
        (t.interfere r).connectStep cfg r
      | .sslCtxNew | .sslNew | .sslConnect => (t.interfere r).tlsStep cfg r
      | .sendRequest _ | .readResponse _ => (t.interfere r).handshakeStep cfg r
      | .loop | .poll | .read => (t.interfere r).loopStep r
      | .returned | .crashed | .spinning => t.interfere r := rfl

/-- A step is one of the calls of its part of `threadFunc`. -/
theorem step_cases (t : WsThread) (cfg : ClientConfig) (r : CallResults) :
    t.step cfg r = (t.interfere r).connectStep cfg r ∨
    t.step cfg r = (t.interfere r).tlsStep cfg r ∨
    t.step cfg r = (t.interfere r).handshakeStep cfg r ∨
    ((t.pc = .loop ∨ t.pc = .poll ∨ t.pc = .read) ∧ t.step cfg r = (t.interfere r).loopStep r) ∨
    (t.isOver = true ∧ t.step cfg r = t.interfere r) := by
  cases hpc : t.pc with
  | resolve | socket | connect | awaitConnect | socketError => simp [step, hpc]
  | sslCtxNew | sslNew | sslConnect => simp [step, hpc]
  | sendRequest | readResponse => simp [step, hpc]
  | loop | poll | read => simp [step, hpc]
  | returned | crashed | spinning => simp [step, hpc, isOver]

/-- A step that does not derail leads from a stage to a stage. -/
theorem Stage.step (h : t.Stage) (cfg : ClientConfig) (hsafe : ¬t.Derails r) :
    (t.step cfg r).Stage := by
  have h := h.interfere r
  have hnew : (t.interfere r).pc = .sslNew → r.sslNew ≠ none := fun hpc hnull =>
    hsafe (Or.inl ⟨hpc, hnull⟩)
  have hreturns : (t.interfere r).pc = .read → ∀ bytes, r.read = .done bytes →
      ∃ rx, processFrame ((t.interfere r).receiving bytes) = .returned rx := by
    intro hpc bytes hread
    refine processFrame_returns_iff.mpr fun s hd hv hderails => ?_
    exact hsafe (Or.inr ⟨hpc, bytes, hread, s, hd, hv, hderails⟩)
  rw [step_eq]
  generalize t.interfere r = t at h hnew hreturns
  cases h with
  | resolve hpc hsockfd hctx hssl hobtained hreleased hcalls =>
    rw [hpc]
    exact stage_resolve hpc hsockfd hctx hssl hobtained hreleased hcalls
  | socket res hpc hsockfd hctx hssl hobtained hreleased hcalls =>
    rw [hpc]
    exact stage_socket hpc hsockfd hctx hssl hobtained hreleased hcalls
  | connect res fd hpc hsockfd hctx hssl hobtained hreleased hcalls =>
    rw [hpc]
    exact stage_connect hpc hsockfd hctx hssl hobtained hreleased hcalls
  | plain hpc hlinked hctx hssl hcalls =>
    rcases hpc with hpc | hpc | hpc
    · rw [hpc]
      exact stage_awaitConnect hpc hlinked hctx hssl hcalls
    · rw [hpc]
      exact stage_socketError hpc hlinked hctx hssl hcalls
    · rw [hpc]
      exact stage_sslCtxNew hpc hlinked hctx hssl hcalls
  | context hpc hlinked hssl hcalls =>
    obtain ⟨ssl, hssl'⟩ := Option.ne_none_iff_exists'.mp (hnew hpc)
    rw [hpc]
    exact stage_sslNew hpc hlinked hssl hcalls hssl'
  | handshake hpc hlinked hcalls =>
    rcases hpc with hpc | ⟨sent, hpc⟩ | ⟨reader, hpc⟩
    · rw [hpc]
      exact stage_sslConnect hpc hlinked hcalls
    · rw [hpc]
      exact stage_sendRequest hpc hlinked hcalls
    · rw [hpc]
      exact stage_readResponse hpc hlinked hcalls
  | opened hpc hlinked received hreceived hcalls =>
    have hstep := stage_loopStep hpc hlinked hreceived hcalls hreturns
    rcases hpc with hpc | hpc | hpc
    · rw [hpc]
      exact hstep
    · rw [hpc]
      exact hstep
    · rw [hpc]
      exact hstep
  | returned hpc hreleased hcomplete =>
    rw [hpc]
    exact .returned hpc hreleased hcomplete

theorem Stage.callbacks_of_sslNew (h : t.Stage) (hpc : t.pc = .sslNew) : t.callbacks = [] := by
  cases h with
  | context _ _ _ hcalls => exact hcalls
  | plain hpc' | handshake hpc' | opened hpc' => simp [hpc] at hpc'
  | resolve hpc' | socket _ hpc' | connect _ _ hpc' | returned hpc' => simp [hpc] at hpc'

theorem Stage.callbacks_of_read (h : t.Stage) (hpc : t.pc = .read) :
    ∃ received : List Callback, (∀ c ∈ received, c.isReceived = true) ∧
      t.callbacks = .onOpen :: received := by
  cases h with
  | opened _ _ received hreceived hcalls => exact ⟨received, hreceived, hcalls⟩
  | plain hpc' | handshake hpc' | context hpc' => simp [hpc] at hpc'
  | resolve hpc' | socket _ hpc' | connect _ _ hpc' | returned hpc' => simp [hpc] at hpc'

/-- A step that derails leaves the worker stuck. -/
theorem Stage.derail (h : t.Stage) (cfg : ClientConfig) (hderails : t.Derails r) :
    (t.step cfg r).Stuck := by
  have h := h.interfere r
  rw [step_eq]
  rcases hderails with ⟨hpc, hnull⟩ | ⟨hpc, bytes, hread, hlost⟩
  · have hpc : (t.interfere r).pc = .sslNew := hpc
    have hcalls := h.callbacks_of_sslNew hpc
    rw [hpc]
    simp only [tlsStep, hpc, hnull]
    exact ⟨Or.inl rfl, Or.inl hcalls⟩
  · have hpc : (t.interfere r).pc = .read := hpc
    obtain ⟨received, hreceived, hcalls⟩ := h.callbacks_of_read hpc
    have hlost : ¬∃ rx, processFrame ((t.interfere r).receiving bytes) = .returned rx := by
      rw [processFrame_returns_iff]
      intro hnone
      obtain ⟨s, hd, hv, hderails⟩ := hlost
      exact hnone s hd hv hderails
    rw [hpc]
    simp only [loopStep, hpc, hread]
    exact stuck_receive hreceived hcalls hlost

theorem Stuck.step (h : t.Stuck) (cfg : ClientConfig) (r : CallResults) :
    (t.step cfg r).Stuck := by
  have hsame : t.step cfg r = t.interfere r := by
    rw [step_eq]
    rcases h.pc with hpc | hpc
    · have hpc : (t.interfere r).pc = .crashed := hpc
      rw [hpc]
    · have hpc : (t.interfere r).pc = .spinning := hpc
      rw [hpc]
  rw [hsame]
  exact ⟨h.pc, h.callbacks⟩

theorem Stage.protocol (h : t.Stage) : t.Protocol := by
  have hrefused : Complete ([] ++ [.onError 6 [], .onClose 1006 []]) := .refused 6 [] 1006 []
  cases h with
  | resolve hpc _ _ _ _ _ hcalls | socket _ hpc _ _ _ _ _ hcalls
  | connect _ _ hpc _ _ _ _ _ hcalls | context hpc _ _ hcalls =>
    exact ⟨by simp [isOver, hpc], ⟨_, hcalls ▸ hrefused⟩, by simp [hpc]⟩
  | plain hpc _ _ _ hcalls =>
    refine ⟨?_, ⟨_, hcalls ▸ hrefused⟩, ?_⟩
    · rcases hpc with hpc | hpc | hpc <;> simp [isOver, hpc]
    · rcases hpc with hpc | hpc | hpc <;> simp [hpc]
  | handshake hpc _ hcalls =>
    refine ⟨?_, ⟨_, hcalls ▸ hrefused⟩, ?_⟩
    · rcases hpc with hpc | ⟨_, hpc⟩ | ⟨_, hpc⟩ <;> simp [isOver, hpc]
    · rcases hpc with hpc | ⟨_, hpc⟩ | ⟨_, hpc⟩ <;> simp [hpc]
  | opened hpc _ received hreceived hcalls =>
    refine ⟨?_, ⟨[.onClose 1006 []], hcalls ▸ .served hreceived 1006 []⟩, ?_⟩
    · rcases hpc with hpc | hpc | hpc <;> simp [isOver, hpc]
    · rcases hpc with hpc | hpc | hpc <;> simp [hpc]
  | returned hpc hreleased hcomplete =>
    exact ⟨fun _ => hcomplete, ⟨[], by rwa [List.append_nil]⟩, fun _ => hreleased⟩

theorem Stuck.not_protocol (h : t.Stuck) : ¬t.Protocol := by
  intro hprotocol
  have hover : t.isOver = true := by rcases h.pc with hpc | hpc <;> simp [isOver, hpc]
  have hcomplete := hprotocol.complete hover
  rcases h.callbacks with hcalls | ⟨received, hreceived, hcalls⟩
  · rw [hcalls] at hcomplete
    cases hcomplete
  · rw [hcalls] at hcomplete
    exact not_complete_of_opened hreceived hcomplete

end

theorem start_stage (rxbuf : List UInt8) : (start rxbuf).Stage :=
  .resolve rfl rfl rfl rfl rfl rfl rfl

/-- For any results of the calls, the callbacks are those of the protocol and everything is
released, if and only if `SSL_new` never fails and no frame makes `processFrame` derail. -/
theorem callback_protocol_iff (cfg : ClientConfig) (rxbuf : List UInt8)
    (results : List CallResults) :
    Always (fun t r t' => t.step cfg r = t') Protocol (start rxbuf) results ↔
      Never (fun t r t' => t.step cfg r = t') Derails (start rxbuf) results := by
  refine always_iff_never (I := fun t => t.Stage ∨ t.Stuck) ?_ ?_ ?_ (Or.inl (start_stage rxbuf))
    (start_stage rxbuf).protocol
  · rintro t r _ (hstage | hstuck) rfl
    · by_cases hd : t.Derails r
      · exact Or.inr (hstage.derail cfg hd)
      · exact Or.inl (hstage.step cfg hd)
    · exact Or.inr (hstuck.step cfg r)
  · rintro t r _ (hstage | hstuck) hprotocol hd rfl
    · exact (hstage.step cfg hd).protocol
    · exact absurd hprotocol hstuck.not_protocol
  · rintro t r (hstage | hstuck) hprotocol hd
    · exact ⟨_, rfl, (hstage.derail cfg hd).not_protocol⟩
    · exact absurd hprotocol hstuck.not_protocol

/-- `SSL_new` fails on a `wss://` connection: the worker dies without a callback. -/
theorem null_ssl_crashes : ¬∀ (cfg : ClientConfig) (results : List CallResults),
    Always (fun t r t' => WsThread.step cfg t r = t') Protocol (start []) results := by
  intro hall
  let cfg := configWith ⟨[], [], [], false⟩
  let r : CallResults := ⟨some 1, some 3, .connected, true, 0, some 1, none, .closed, [], .closed,
    .closed, .failed, .closed, false, false⟩
  have hprotocol := hall cfg (List.replicate 5 r) _ _ (List.prefix_refl _)
    (run_foldl (WsThread.step cfg) (start []) (List.replicate 5 r))
  have hcomplete : Complete [] := hprotocol.complete rfl
  cases hcomplete

end WsThread

end ModAudioStream
