import ModAudioStream.ResponseCuts
import ModAudioStream.ThreadFunc

namespace ModAudioStream

open ResponseReader

namespace WsThread

variable {t : WsThread} {r : CallResults} {cfg : ClientConfig}

/-- Where the worker goes once it is connected. -/
def connectedPc (cfg : ClientConfig) : WsThreadPc :=
  if cfg.url.useTls then .sslCtxNew else .sendRequest 0

@[simp] theorem cleanup_pc (t : WsThread) : t.cleanup.pc = .returned := by
  unfold cleanup
  generalize (if 0 ≤ t.sockfd then t.freeSsl.freeSslCtx.closeSocket else t) = t
  dsimp only
  split
  · rfl
  · rfl

theorem step_resolve {res : Nat} (hpc : t.pc = .resolve) (h : r.getaddrinfo = some res) :
    (t.step cfg r).pc = .socket res := by
  simp [step, connectStep, hpc, h]

theorem step_socket {res fd : Nat} (hpc : t.pc = .socket res) (h : r.socket = some fd) :
    (t.step cfg r).pc = .connect res := by
  simp [step, connectStep, hpc, h]

theorem step_connect {res : Nat} (hpc : t.pc = .connect res) (h : r.connect ≠ .failed) :
    (t.step cfg r).pc = .awaitConnect ∨ (t.step cfg r).pc = connectedPc cfg := by
  cases hconnect : r.connect with
  | connected =>
    right
    simp [step, connectStep, hpc, hconnect, afterConnect, connectedPc]
  | inProgress =>
    left
    simp [step, connectStep, hpc, hconnect]
  | failed => exact absurd hconnect h

theorem step_awaitConnect (hpc : t.pc = .awaitConnect) (h : r.pollConnect = true) :
    (t.step cfg r).pc = .socketError := by
  simp [step, connectStep, hpc, h]

theorem step_socketError (hpc : t.pc = .socketError) (h : r.soError = 0) :
    (t.step cfg r).pc = connectedPc cfg := by
  simp [step, connectStep, hpc, h, afterConnect, connectedPc]

theorem step_sslCtxNew {ctx : Nat} (hpc : t.pc = .sslCtxNew) (h : r.sslCtxNew = some ctx) :
    (t.step cfg r).pc = .sslNew := by
  simp [step, tlsStep, hpc, h]

theorem step_sslNew {ssl : Nat} (hpc : t.pc = .sslNew) (h : r.sslNew = some ssl) :
    (t.step cfg r).pc = .sslConnect := by
  simp [step, tlsStep, hpc, h]

theorem step_sslConnect (hpc : t.pc = .sslConnect) (h : r.sslConnect = .done ()) :
    (t.step cfg r).pc = .sendRequest 0 := by
  simp [step, tlsStep, hpc, h]

theorem step_sendRequest {sent n : Nat} (hpc : t.pc = .sendRequest sent)
    (hmore : sent < cfg.request.length) (h : r.write = .done (n + 1)) :
    (t.step cfg r).pc = .sendRequest (sent + (n + 1)) := by
  simp [step, handshakeStep, hpc, hmore, h]

theorem step_requestSent {sent : Nat} (hpc : t.pc = .sendRequest sent)
    (hsent : ¬sent < cfg.request.length) : (t.step cfg r).pc = .readResponse (.status []) := by
  simp only [step, interfere_pc, hpc, handshakeStep, if_neg hsent]

theorem step_readMore {reader reader' : ResponseReader} {c : UInt8}
    (hpc : t.pc = .readResponse reader) (h : r.readChar = .done c)
    (hmore : reader.feed cfg.expectedAccept c = .more reader') :
    (t.step cfg r).pc = .readResponse reader' := by
  simp [step, handshakeStep, hpc, h, hmore]

theorem step_readLast {reader : ResponseReader} {c : UInt8} (hpc : t.pc = .readResponse reader)
    (h : r.readChar = .done c) (hdone : reader.feed cfg.expectedAccept c = .done) :
    (t.step cfg r).pc = .loop ∧ .onOpen ∈ (t.step cfg r).callbacks := by
  simp [step, handshakeStep, hpc, h, hdone, opened, call]

/-- The worker has come to the main loop, and perhaps beyond. -/
def PastOpen (t : WsThread) : Prop :=
  t.pc = .loop ∨ t.pc = .poll ∨ t.pc = .read ∨ t.isOver = true

theorem pastOpen_of_over (h : t.isOver = true) : t.PastOpen := Or.inr (Or.inr (Or.inr h))

theorem pastOpen_receive (t : WsThread) (bytes : List UInt8) : (t.receive bytes).PastOpen := by
  unfold receive
  split
  · exact Or.inl rfl
  · exact pastOpen_of_over rfl
  · exact pastOpen_of_over rfl

theorem pastOpen_cleanup (t : WsThread) : t.cleanup.PastOpen :=
  pastOpen_of_over (by simp [isOver])

theorem pastOpen_loopStep (hpc : t.pc = .loop ∨ t.pc = .poll ∨ t.pc = .read) :
    (t.loopStep r).PastOpen := by
  rcases hpc with hpc | hpc | hpc
  · simp only [loopStep, hpc]
    split
    · exact Or.inr (Or.inl rfl)
    · exact pastOpen_cleanup t
  · simp only [loopStep, hpc]
    split
    · exact Or.inl rfl
    · exact pastOpen_cleanup t
    next pollin _ _ =>
      cases pollin with
      | true => exact Or.inr (Or.inr (Or.inl rfl))
      | false => exact Or.inl rfl
  · simp only [loopStep, hpc]
    split
    · exact pastOpen_receive t _
    · exact pastOpen_cleanup t
    · split
      · exact Or.inl rfl
      · exact pastOpen_cleanup t

theorem step_over (h : t.isOver = true) : t.step cfg r = t.interfere r := by
  simp only [isOver] at h
  simp only [step, interfere_pc]
  split at h
  next hpc => rw [hpc]
  next hpc => rw [hpc]
  next hpc => rw [hpc]
  next => cases h

theorem PastOpen.step (h : t.PastOpen) (cfg : ClientConfig) (r : CallResults) :
    (t.step cfg r).PastOpen := by
  rcases h with hpc | hpc | hpc | hover
  · have hloop := pastOpen_loopStep (t := t.interfere r) (r := r) (Or.inl hpc)
    simpa [WsThread.step, hpc] using hloop
  · have hloop := pastOpen_loopStep (t := t.interfere r) (r := r) (Or.inr (Or.inl hpc))
    simpa [WsThread.step, hpc] using hloop
  · have hloop := pastOpen_loopStep (t := t.interfere r) (r := r) (Or.inr (Or.inr hpc))
    simpa [WsThread.step, hpc] using hloop
  · rw [step_over hover]
    exact pastOpen_of_over hover

theorem PastOpen.pc_ne (h : t.PastOpen) :
    t.pc ≠ .sslConnect ∧ ∀ sent, t.pc ≠ .sendRequest sent := by
  rcases h with hpc | hpc | hpc | hover
  · simp [hpc]
  · simp [hpc]
  · simp [hpc]
  · constructor
    · intro hpc
      simp [isOver, hpc] at hover
    · intro sent hpc
      simp [isOver, hpc] at hover

/-- A read of the main loop that has to wait goes back to the loop. -/
theorem step_transientRead (hpc : t.pc = .read)
    (h : r.read.isTransient t.ssl.isSome = true) : (t.step cfg r).pc = .loop := by
  cases hread : r.read with
  | done bytes => simp [hread, IoResult.isTransient] at h
  | closed => simp [hread, IoResult.isTransient] at h
  | failed errno sslError =>
    rw [hread] at h
    have htransient : (IoResult.failed errno sslError : IoResult Unit).isTransient
        t.ssl.isSome = true := h
    simp [step, loopStep, hpc, hread, htransient]

theorem step_transientConnect (hpc : t.pc = .sslConnect)
    (h : r.sslConnect.isTransient true = true) : (t.step cfg r).pc = .returned := by
  cases hconnect : r.sslConnect with
  | done => simp [hconnect, IoResult.isTransient] at h
  | closed => simp [step, tlsStep, hpc, hconnect]
  | failed errno sslError => simp [step, tlsStep, hpc, hconnect]

theorem step_transientWrite {sent : Nat} (hpc : t.pc = .sendRequest sent)
    (hmore : sent < cfg.request.length) {tls : Bool} (h : r.write.isTransient tls = true) :
    (t.step cfg r).pc = .returned := by
  cases hwrite : r.write with
  | done n => simp [hwrite, IoResult.isTransient] at h
  | closed => simp [step, handshakeStep, hpc, hmore, hwrite]
  | failed errno sslError => simp [step, handshakeStep, hpc, hmore, hwrite]

end WsThread

/-- The worker, and what it has not read yet of the server's response. -/
structure Exchange where
  thread : WsThread
  unread : List UInt8

namespace Exchange

def step (cfg : ClientConfig) (x : Exchange) (r : CallResults) : Exchange where
  thread := x.thread.step cfg r
  unread :=
    match x.thread.pc with
    | .readResponse _ => x.unread.tail
    | _ => x.unread

/-- The server completes the handshakes: each call that the worker may now make succeeds, or
has to wait, and a character that it reads is the next one of the response. -/
def Served (cfg : ClientConfig) (x : Exchange) (r : CallResults) : Prop :=
  match x.thread.pc with
  | .resolve => r.getaddrinfo.isSome = true
  | .socket _ => r.socket.isSome = true
  | .connect _ => r.connect ≠ .failed
  | .awaitConnect => r.pollConnect = true
  | .socketError => r.soError = 0
  | .sslCtxNew => r.sslCtxNew.isSome = true
  | .sslNew => r.sslNew.isSome = true
  | .sslConnect => r.sslConnect = .done () ∨ r.sslConnect.isTransient true = true
  | .sendRequest sent => sent < cfg.request.length →
      (∃ n, r.write = .done (n + 1)) ∨ r.write.isTransient x.thread.ssl.isSome = true
  | .readResponse _ => ∀ c ∈ x.unread.head?, r.readChar = .done c
  | _ => True

/-- `SSL_connect`, or a write of the request, has to wait. -/
def Waits (cfg : ClientConfig) (x : Exchange) (r : CallResults) : Prop :=
  (x.thread.pc = .sslConnect ∧ r.sslConnect.isTransient true = true) ∨
    ∃ sent, x.thread.pc = .sendRequest sent ∧ sent < cfg.request.length ∧
      r.write.isTransient x.thread.ssl.isSome = true

/-- The worker is on its way to the main loop, with a response ahead that it accepts. -/
def Pending (cfg : ClientConfig) (x : Exchange) : Prop :=
  match x.thread.pc with
  | .readResponse reader => ∃ rest, readResponse cfg.expectedAccept reader x.unread = .ok rest
  | .loop | .poll | .read | .returned | .crashed | .spinning => False
  | _ => ∃ rest, readResponse cfg.expectedAccept (.status []) x.unread = .ok rest

/-- How many steps there are to the main loop at most. -/
def rank (cfg : ClientConfig) (x : Exchange) : Nat :=
  match x.thread.pc with
  | .resolve => cfg.request.length + x.unread.length + 9
  | .socket _ => cfg.request.length + x.unread.length + 8
  | .connect _ => cfg.request.length + x.unread.length + 7
  | .awaitConnect => cfg.request.length + x.unread.length + 6
  | .socketError => cfg.request.length + x.unread.length + 5
  | .sslCtxNew => cfg.request.length + x.unread.length + 4
  | .sslNew => cfg.request.length + x.unread.length + 3
  | .sslConnect => cfg.request.length + x.unread.length + 2
  | .sendRequest sent => cfg.request.length - sent + x.unread.length + 1
  | _ => x.unread.length

def Opened (x : Exchange) : Prop := x.thread.pc = .loop ∧ .onOpen ∈ x.thread.callbacks

variable {cfg : ClientConfig} {x : Exchange} {r : CallResults}

/-- A step that is not a read leaves the response as it is. -/
theorem step_unread (h : ∀ reader, x.thread.pc ≠ .readResponse reader) :
    (x.step cfg r).unread = x.unread := by
  simp only [step]

theorem rank_connectedPc (hpc : x.thread.pc = WsThread.connectedPc cfg) :
    x.rank cfg ≤ cfg.request.length + x.unread.length + 4 := by
  unfold WsThread.connectedPc at hpc
  split at hpc
  · simp [rank, hpc]
  · simp only [rank, hpc]
    omega

theorem pending_connectedPc (hpc : x.thread.pc = WsThread.connectedPc cfg) {rest : List UInt8}
    (h : readResponse cfg.expectedAccept (.status []) x.unread = .ok rest) : x.Pending cfg := by
  unfold WsThread.connectedPc at hpc
  split at hpc
  · simp [Pending, hpc, h]
  · simp [Pending, hpc, h]

theorem pending_next_sendRequest {sent : Nat} (hpc : x.thread.pc = .sendRequest sent)
    (hpending : x.Pending cfg) (hserved : x.Served cfg r) (hwaits : ¬x.Waits cfg r) :
    (x.step cfg r).Pending cfg ∧ (x.step cfg r).rank cfg < x.rank cfg := by
  have hunread := @step_unread cfg x r
  simp only [Pending, hpc] at hpending
  simp only [Served, hpc] at hserved
  by_cases hmore : sent < cfg.request.length
  · obtain ⟨n, hn⟩ := (hserved hmore).resolve_right
      fun h => hwaits (Or.inr ⟨sent, hpc, hmore, h⟩)
    have hnext : (x.step cfg r).thread.pc = .sendRequest (sent + (n + 1)) :=
      WsThread.step_sendRequest hpc hmore hn
    simp only [Pending, rank, hnext, hunread (by simp [hpc]), hpc]
    exact ⟨hpending, by omega⟩
  · have hnext : (x.step cfg r).thread.pc = .readResponse (.status []) :=
      WsThread.step_requestSent hpc hmore
    simp only [Pending, rank, hnext, hunread (by simp [hpc]), hpc]
    exact ⟨hpending, by omega⟩

theorem pending_next_readResponse {reader : ResponseReader}
    (hpc : x.thread.pc = .readResponse reader) (hpending : x.Pending cfg)
    (hserved : x.Served cfg r) : (x.step cfg r).Opened ∨
      ((x.step cfg r).Pending cfg ∧ (x.step cfg r).rank cfg < x.rank cfg) := by
  simp only [Pending, hpc] at hpending
  simp only [Served, hpc] at hserved
  obtain ⟨rest, hrest⟩ := hpending
  have hnextUnread : (x.step cfg r).unread = x.unread.tail := by simp [step, hpc]
  cases hx : x.unread with
  | nil =>
    rw [hx] at hrest
    cases hrest
  | cons c unread =>
    rw [hx] at hrest hserved hnextUnread
    have hchar : r.readChar = .done c := hserved c rfl
    rw [readResponse_cons] at hrest
    cases hfeed : reader.feed cfg.expectedAccept c with
    | more reader' =>
      rw [hfeed] at hrest
      have hnext : (x.step cfg r).thread.pc = .readResponse reader' :=
        WsThread.step_readMore hpc hchar hfeed
      right
      simp only [Pending, rank, hnext, hnextUnread, hpc, hx, List.tail_cons, List.length_cons]
      exact ⟨⟨rest, hrest⟩, by omega⟩
    | done => exact Or.inl (WsThread.step_readLast hpc hchar hfeed)
    | failed e =>
      rw [hfeed] at hrest
      cases hrest

/-- Without waiting, a step comes closer to the main loop. -/
theorem pending_next (hpending : x.Pending cfg) (hserved : x.Served cfg r)
    (hwaits : ¬x.Waits cfg r) : (x.step cfg r).Opened ∨
      ((x.step cfg r).Pending cfg ∧ (x.step cfg r).rank cfg < x.rank cfg) := by
  have hunread := @step_unread cfg x r
  cases hpc : x.thread.pc with
  | resolve =>
    simp only [Pending, hpc] at hpending
    simp only [Served, hpc] at hserved
    obtain ⟨res, hres⟩ := Option.isSome_iff_exists.mp hserved
    have hnext : (x.step cfg r).thread.pc = .socket res := WsThread.step_resolve hpc hres
    right
    simp [Pending, rank, hnext, hunread (by simp [hpc]), hpc, hpending]
  | socket res =>
    simp only [Pending, hpc] at hpending
    simp only [Served, hpc] at hserved
    obtain ⟨fd, hfd⟩ := Option.isSome_iff_exists.mp hserved
    have hnext : (x.step cfg r).thread.pc = .connect res := WsThread.step_socket hpc hfd
    right
    simp [Pending, rank, hnext, hunread (by simp [hpc]), hpc, hpending]
  | connect res =>
    simp only [Pending, hpc] at hpending
    simp only [Served, hpc] at hserved
    obtain ⟨rest, hrest⟩ := hpending
    rw [← hunread (by simp [hpc])] at hrest
    right
    rcases @WsThread.step_connect _ _ cfg _ hpc hserved with hnext | hnext
    · have hnext : (x.step cfg r).thread.pc = .awaitConnect := hnext
      rw [hunread (by simp [hpc])] at hrest
      simp [Pending, rank, hnext, hunread (by simp [hpc]), hpc, hrest]
    · have hrank := rank_connectedPc (x := x.step cfg r) hnext
      rw [hunread (by simp [hpc])] at hrank
      refine ⟨pending_connectedPc hnext hrest, ?_⟩
      simp only [rank, hpc] at hrank ⊢
      omega
  | awaitConnect =>
    simp only [Pending, hpc] at hpending
    simp only [Served, hpc] at hserved
    have hnext : (x.step cfg r).thread.pc = .socketError :=
      WsThread.step_awaitConnect hpc hserved
    right
    simp [Pending, rank, hnext, hunread (by simp [hpc]), hpc, hpending]
  | socketError =>
    simp only [Pending, hpc] at hpending
    simp only [Served, hpc] at hserved
    obtain ⟨rest, hrest⟩ := hpending
    rw [← hunread (by simp [hpc])] at hrest
    have hnext : (x.step cfg r).thread.pc = WsThread.connectedPc cfg :=
      WsThread.step_socketError hpc hserved
    have hrank := rank_connectedPc hnext
    rw [hunread (by simp [hpc])] at hrank
    right
    refine ⟨pending_connectedPc hnext hrest, ?_⟩
    simp only [rank, hpc] at hrank ⊢
    omega
  | sslCtxNew =>
    simp only [Pending, hpc] at hpending
    simp only [Served, hpc] at hserved
    obtain ⟨ctx, hctx⟩ := Option.isSome_iff_exists.mp hserved
    have hnext : (x.step cfg r).thread.pc = .sslNew := WsThread.step_sslCtxNew hpc hctx
    right
    simp [Pending, rank, hnext, hunread (by simp [hpc]), hpc, hpending]
  | sslNew =>
    simp only [Pending, hpc] at hpending
    simp only [Served, hpc] at hserved
    obtain ⟨ssl, hssl⟩ := Option.isSome_iff_exists.mp hserved
    have hnext : (x.step cfg r).thread.pc = .sslConnect := WsThread.step_sslNew hpc hssl
    right
    simp [Pending, rank, hnext, hunread (by simp [hpc]), hpc, hpending]
  | sslConnect =>
    simp only [Pending, hpc] at hpending
    simp only [Served, hpc] at hserved
    have hdone : r.sslConnect = .done () :=
      hserved.resolve_right fun h => hwaits (Or.inl ⟨hpc, h⟩)
    have hnext : (x.step cfg r).thread.pc = .sendRequest 0 := WsThread.step_sslConnect hpc hdone
    right
    simp [Pending, rank, hnext, hunread (by simp [hpc]), hpc, hpending]
  | sendRequest sent => exact Or.inr (pending_next_sendRequest hpc hpending hserved hwaits)
  | readResponse reader => exact pending_next_readResponse hpc hpending hserved
  | loop | poll | read | returned | crashed | spinning => simp [Pending, hpc] at hpending

end Exchange

/-- A run of the worker against a server that completes the handshakes. -/
structure ServedRun (cfg : ClientConfig) where
  rxbuf : List UInt8
  response : List UInt8
  accepted : ∃ rest, readResponse cfg.expectedAccept (.status []) response = .ok rest
  results : Nat → CallResults
  served : ∀ k, (statesFrom (Exchange.step cfg) ⟨WsThread.start rxbuf, response⟩ results k).Served
    cfg (results k)

namespace ServedRun

variable {cfg : ClientConfig} (run : ServedRun cfg)

def state (k : Nat) : Exchange :=
  statesFrom (Exchange.step cfg) ⟨WsThread.start run.rxbuf, run.response⟩ run.results k

/-- The worker reaches `OPEN`, and a read that has to wait does not end its main loop. -/
structure Survives : Prop where
  opens : ∃ k, (run.state k).Opened
  stays : ∀ k, (run.state k).thread.pc = .read →
    (run.results k).read.isTransient (run.state k).thread.ssl.isSome = true →
      (run.state (k + 1)).thread.pc = .loop

theorem pending_start : (run.state 0).Pending cfg := run.accepted

theorem opens_of_not_waits (h : ∀ k, ¬(run.state k).Waits cfg (run.results k)) :
    ∃ k, (run.state k).Opened := by
  refine @reaches_of_rank _ (Exchange.Pending cfg) Exchange.Opened (Exchange.rank cfg) run.state
    (fun k hpending => ?_) 0 run.pending_start
  exact Exchange.pending_next hpending (run.served k) (h k)

theorem stays_in_loop (k : Nat) (hpc : (run.state k).thread.pc = .read)
    (h : (run.results k).read.isTransient (run.state k).thread.ssl.isSome = true) :
    (run.state (k + 1)).thread.pc = .loop :=
  WsThread.step_transientRead hpc h

/-- A run that has to wait on its way to the main loop ends there. -/
theorem not_opened_of_waits {k : Nat} (h : (run.state k).Waits cfg (run.results k)) (j : Nat) :
    ¬(run.state j).Opened := by
  rintro ⟨hloop, -⟩
  by_cases hjk : j ≤ k
  · have hpast : (run.state k).thread.PastOpen :=
      kept_from (P := fun x : Exchange => x.thread.PastOpen) (x := run.state)
        (fun i hi => hi.step cfg (run.results i)) hjk (Or.inl hloop)
    obtain ⟨hconnect, hsend⟩ := hpast.pc_ne
    rcases h with ⟨hpc, -⟩ | ⟨sent, hpc, -⟩
    · exact hconnect hpc
    · exact hsend sent hpc
  · have hnext : (run.state (k + 1)).thread.pc = .returned := by
      rcases h with ⟨hpc, hwait⟩ | ⟨sent, hpc, hmore, hwait⟩
      · exact WsThread.step_transientConnect hpc hwait
      · exact WsThread.step_transientWrite hpc hmore hwait
    have hkeep : ∀ i, (run.state i).thread.pc = .returned →
        (run.state (i + 1)).thread.pc = .returned := by
      intro i hi
      have hover : (run.state i).thread.isOver = true := by simp [WsThread.isOver, hi]
      change ((run.state i).thread.step cfg (run.results i)).pc = .returned
      rw [WsThread.step_over hover]
      exact hi
    have hreturned := kept_from (P := fun x : Exchange => x.thread.pc = .returned)
      (x := run.state) hkeep (by omega : k + 1 ≤ j) hnext
    rw [hloop] at hreturned
    cases hreturned

/-- The worker survives what has to wait if and only if neither `SSL_connect` nor a write of
the request has to. -/
theorem transient_survived_iff (cfg : ClientConfig) (run : ServedRun cfg) :
    run.Survives ↔ ∀ k, ¬(run.state k).Waits cfg (run.results k) := by
  constructor
  · rintro ⟨⟨j, hopened⟩, -⟩ k hwaits
    exact run.not_opened_of_waits hwaits j hopened
  · intro h
    exact ⟨run.opens_of_not_waits h, run.stays_in_loop⟩

end ServedRun

/-- The response of a server that only says what it has to. -/
def plainResponse (digest : Digest) : List UInt8 :=
  ascii "HTTP/1.1 101" ++ (crlf ++ (acceptLine (digestText digest) ++ (crlf ++ (crlf ++ []))))

theorem plainResponse_accepted (digest : Digest) :
    readResponse (digestText digest) (.status []) (plainResponse digest) = .ok [] := by
  rw [plainResponse, read_statusLine _ (isLine_of_not_mem (by decide)) (by decide)]
  exact read_acceptLine digest [] []

/-- `SSL_connect` on the non-blocking socket has to wait for the server: the worker gives up. -/
theorem wait_in_connect_fails : ¬∀ (cfg : ClientConfig) (run : ServedRun cfg), run.Survives := by
  intro hall
  let cfg := configWith ⟨[], [], [], false⟩
  let r : CallResults := ⟨some 1, some 3, .connected, true, 0, some 1, some 2,
    .failed .other .wantRead, [], .closed, .closed, .failed, .closed, false, false⟩
  let state := statesFrom (Exchange.step cfg) ⟨WsThread.start [], plainResponse cfg.digest⟩
    fun _ => r
  have hreturned : ∀ k, (state (k + 6)).thread.pc = .returned := by
    intro k
    induction k with
    | zero => rfl
    | succ k ih =>
      have hover : (state (k + 6)).thread.isOver = true := by simp [WsThread.isOver, ih]
      change ((state (k + 6)).thread.step cfg r).pc = .returned
      rw [WsThread.step_over hover]
      exact ih
  have hserved : ∀ k, (state k).Served cfg r := by
    intro k
    by_cases hk : 6 ≤ k
    · obtain ⟨i, rfl⟩ : ∃ i, k = i + 6 := ⟨k - 6, by omega⟩
      simp [Exchange.Served, hreturned i]
    · have hcases : k = 0 ∨ k = 1 ∨ k = 2 ∨ k = 3 ∨ k = 4 ∨ k = 5 := by omega
      rcases hcases with rfl | rfl | rfl | rfl | rfl | rfl
      · rfl
      · rfl
      · exact fun h => by cases h
      · rfl
      · rfl
      · exact Or.inr rfl
  have hsurvives := hall cfg
    ⟨[], plainResponse cfg.digest, ⟨[], plainResponse_accepted cfg.digest⟩, fun _ => r, hserved⟩
  obtain ⟨j, hopened⟩ := hsurvives.opens
  exact ServedRun.not_opened_of_waits _ (k := 5) (Or.inl ⟨rfl, rfl⟩) j hopened

end ModAudioStream
