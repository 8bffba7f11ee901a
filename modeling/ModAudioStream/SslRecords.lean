import ModAudioStream.Runs
import ModAudioStream.TransientResults
import ModAudioStream.WorkerProtocol

namespace ModAudioStream

open ResponseReader

/-- The configuration of a `wss://` client. -/
structure WssConfig extends ClientConfig where
  useTls : toClientConfig.url.useTls = true

/-- A record of application data. -/
structure TlsRecord where
  data : List UInt8
  bound : data.length ≤ 16384

/-- What an `SSL` has for `SSL_read`: the bytes that it has decrypted, and the records that have
arrived behind them. -/
structure SslInput where
  unread : List UInt8
  records : List TlsRecord

/-- A result without data. -/
def IoResult.ofEmpty {α : Type} : IoResult Empty → IoResult α
  | .closed => .closed
  | .failed errno sslError => .failed errno sslError

namespace SslInput

def arrive (input : SslInput) (arrived : List TlsRecord) : SslInput :=
  { input with records := input.records ++ arrived }

/-- Once everything is read, the next record with any data is decrypted, as a whole. -/
def decrypt (input : SslInput) : SslInput :=
  match input.unread with
  | [] =>
    match input.records.dropWhile fun record => record.data.isEmpty with
    | [] => ⟨[], []⟩
    | record :: records => ⟨record.data, records⟩
  | _ => input

/-- What `SSL_read` gives for at most `num` bytes; `nothing` if there are none. -/
def read (input : SslInput) (num : Nat) (nothing : IoResult Empty) : IoResult (List UInt8) :=
  match input.decrypt.unread with
  | [] => nothing.ofEmpty
  | unread => .done (unread.take num)

/-- The same for the one character of `doHandshake`. -/
def readChar (input : SslInput) (nothing : IoResult Empty) : IoResult UInt8 :=
  match input.decrypt.unread with
  | [] => nothing.ofEmpty
  | c :: _ => .done c

/-- What `SSL_read` keeps. -/
def rest (input : SslInput) (num : Nat) : SslInput :=
  { input.decrypt with unread := input.decrypt.unread.drop num }

end SslInput

/-- The worker of a `wss://` client with its `SSL`. -/
structure TlsWorker where
  thread : WsThread
  input : SslInput

/-- The records that have arrived when the worker takes its next step, the results of its
calls, and what `SSL_read` returns if it has no data. -/
structure TlsEvent where
  arrived : List TlsRecord
  calls : CallResults
  nothing : IoResult Empty

namespace TlsWorker

def start (rxbuf : List UInt8) : TlsWorker := ⟨WsThread.start rxbuf, ⟨[], []⟩⟩

/-- What there is to read in a step. -/
def inputAt (x : TlsWorker) (e : TlsEvent) : SslInput := x.input.arrive e.arrived

/-- `threadFunc`, with what `SSL_read` returns in place of any other result. -/
def step (cfg : WssConfig) (x : TlsWorker) (e : TlsEvent) : TlsWorker :=
  match x.thread.pc with
  | .readResponse _ =>
    ⟨x.thread.step cfg.toClientConfig
      { e.calls with readChar := (x.inputAt e).readChar e.nothing }, (x.inputAt e).rest 1⟩
  | .read =>
    ⟨x.thread.step cfg.toClientConfig
      { e.calls with read := (x.inputAt e).read 8192 e.nothing }, (x.inputAt e).rest 8192⟩
  | _ => ⟨x.thread.step cfg.toClientConfig e.calls, x.inputAt e⟩

/-- When `poll` is called, no decrypted byte is left in the `SSL`. -/
def PollsDrained (x : TlsWorker) : Prop := x.thread.pc = .poll → x.input.unread = []

/-- The step ends the response before the end of its record, or reads from more than 8192
decrypted bytes in the main loop. -/
def Cuts (cfg : WssConfig) (x : TlsWorker) (e : TlsEvent) : Prop :=
  match x.thread.pc with
  | .readResponse reader => ∃ c unread, (x.inputAt e).decrypt.unread = c :: unread ∧ unread ≠ [] ∧
      reader.feed cfg.expectedAccept c = .done
  | .read => 8192 < (x.inputAt e).decrypt.unread.length
  | _ => False

/-- The step is the test of `running_` that goes on to `poll`. -/
def GoesToPoll (x : TlsWorker) (e : TlsEvent) : Prop :=
  x.thread.pc = .loop ∧ x.thread.rx.running = true ∧ e.calls.storesNotRunning = false

end TlsWorker

namespace WsThread

variable {t : WsThread} {r : CallResults} {cfg : ClientConfig}

/-- The worker is in its main loop. -/
def Looping (t : WsThread) : Prop := t.pc = .loop ∨ t.pc = .poll ∨ t.pc = .read

theorem not_looping_of_over (h : t.isOver = true) : ¬t.Looping := by
  rintro (hpc | hpc | hpc)
  · simp [isOver, hpc] at h
  · simp [isOver, hpc] at h
  · simp [isOver, hpc] at h

theorem not_looping_cleanup (t : WsThread) : ¬t.cleanup.Looping :=
  not_looping_of_over (by simp [isOver])

theorem not_looping_handshakeFailed (t : WsThread) (e : HandshakeFailure) :
    ¬(t.handshakeFailed e).Looping :=
  not_looping_of_over rfl

theorem not_looping_afterConnect (t : WsThread) (cfg : ClientConfig) :
    ¬(t.afterConnect cfg).Looping := by
  unfold afterConnect
  split
  · simp [Looping]
  · simp [Looping]

theorem not_looping_connectStep (h : ¬t.Looping) : ¬(t.connectStep cfg r).Looping := by
  unfold connectStep
  split
  · split
    · exact not_looping_of_over rfl
    · simp [Looping]
  · split
    · exact not_looping_of_over rfl
    · simp [Looping]
  · split
    · exact not_looping_afterConnect _ cfg
    · simp [Looping]
    · exact not_looping_of_over rfl
  · split
    · simp [Looping]
    · exact not_looping_of_over rfl
  · split
    · exact not_looping_afterConnect _ cfg
    · exact not_looping_of_over rfl
  · exact h

theorem not_looping_tlsStep (h : ¬t.Looping) : ¬(t.tlsStep cfg r).Looping := by
  unfold tlsStep
  split
  · split
    · exact not_looping_of_over rfl
    · simp [Looping]
  · split
    · exact not_looping_of_over rfl
    · simp [Looping]
  · split
    · simp [Looping]
    · exact not_looping_of_over rfl
  · exact h

/-- Only the end of the response leads into the main loop. -/
theorem looping_handshakeStep (h : ¬t.Looping) (hstep : (t.handshakeStep cfg r).Looping) :
    ∃ reader c, t.pc = .readResponse reader ∧ r.readChar = .done c ∧
      reader.feed cfg.expectedAccept c = .done := by
  unfold handshakeStep at hstep
  split at hstep
  · split at hstep
    · split at hstep
      · simp [Looping] at hstep
      · exact absurd hstep (not_looping_handshakeFailed _ _)
    · simp [Looping] at hstep
  next reader hpc =>
    split at hstep
    next c hread =>
      split at hstep
      · simp [Looping] at hstep
      next hdone => exact ⟨reader, c, hpc, hread, hdone⟩
      · exact absurd hstep (not_looping_handshakeFailed _ _)
    · exact absurd hstep (not_looping_handshakeFailed _ _)
  · exact absurd hstep h

theorem looping_step (h : ¬t.Looping) (hstep : (t.step cfg r).Looping) :
    ∃ reader c, t.pc = .readResponse reader ∧ r.readChar = .done c ∧
      reader.feed cfg.expectedAccept c = .done := by
  have hsame : ¬(t.interfere r).Looping := h
  rcases step_cases t cfg r with heq | heq | heq | ⟨hpc, -⟩ | ⟨hover, heq⟩
  · rw [heq] at hstep
    exact absurd hstep (not_looping_connectStep hsame)
  · rw [heq] at hstep
    exact absurd hstep (not_looping_tlsStep hsame)
  · rw [heq] at hstep
    have hlast := looping_handshakeStep hsame hstep
    exact hlast
  · exact absurd hpc h
  · rw [heq] at hstep
    exact absurd hstep hsame

/-- After a read the worker is back at the head of the loop, if it is in the loop at all. -/
theorem loop_of_read (hpc : t.pc = .read) (hstep : (t.step cfg r).Looping) :
    (t.step cfg r).pc = .loop := by
  simp only [step, interfere_pc, hpc, loopStep] at hstep ⊢
  split at hstep
  · unfold receive at hstep ⊢
    split at hstep
    · rfl
    · exact absurd hstep (not_looping_of_over rfl)
    · exact absurd hstep (not_looping_of_over rfl)
  · exact absurd hstep (not_looping_cleanup _)
  · split at hstep
    next htransient => rw [if_pos htransient]
    · exact absurd hstep (not_looping_cleanup _)

theorem step_loop_running (hpc : t.pc = .loop) (hrunning : t.rx.running = true)
    (hstores : r.storesNotRunning = false) : (t.step cfg r).pc = .poll := by
  simp [step, loopStep, hpc, interfere, hrunning, hstores]

theorem step_loop_stopped (hpc : t.pc = .loop)
    (hstopped : ¬(t.rx.running = true ∧ r.storesNotRunning = false)) :
    ¬(t.step cfg r).Looping := by
  have hrunning : (t.interfere r).rx.running = false := by
    simpa [interfere] using hstopped
  simp only [step, interfere_pc, hpc, loopStep, hrunning]
  exact not_looping_cleanup _

end WsThread

namespace SslInput

variable {input : SslInput}

theorem readChar_done {nothing : IoResult Empty} {c : UInt8}
    (h : input.readChar nothing = .done c) :
    ∃ unread, input.decrypt.unread = c :: unread ∧ (input.rest 1).unread = unread := by
  unfold readChar at h
  cases hunread : input.decrypt.unread with
  | nil =>
    rw [hunread] at h
    cases nothing with
    | done a => cases a
    | closed => cases h
    | failed => cases h
  | cons d unread =>
    rw [hunread] at h
    cases h
    exact ⟨unread, rfl, by simp [rest, hunread]⟩

theorem readChar_cons {nothing : IoResult Empty} {c : UInt8} {unread : List UInt8}
    (h : input.decrypt.unread = c :: unread) : input.readChar nothing = .done c := by
  rw [readChar, h]

theorem rest_eq_nil {num : Nat} (h : ¬num < input.decrypt.unread.length) :
    (input.rest num).unread = [] :=
  List.drop_eq_nil_of_le (Nat.le_of_not_lt h)

theorem rest_ne_nil {num : Nat} (h : num < input.decrypt.unread.length) :
    (input.rest num).unread ≠ [] := by
  intro hnil
  have hle := List.drop_eq_nil_iff.mp hnil
  omega

end SslInput

namespace TlsWorker

variable {cfg : WssConfig} {x y : TlsWorker} {e : TlsEvent}

theorem step_readResponse {reader : ResponseReader} (hpc : x.thread.pc = .readResponse reader) :
    x.step cfg e = ⟨x.thread.step cfg.toClientConfig
      { e.calls with readChar := (x.inputAt e).readChar e.nothing }, (x.inputAt e).rest 1⟩ := by
  simp only [step, hpc]

theorem step_read (hpc : x.thread.pc = .read) :
    x.step cfg e = ⟨x.thread.step cfg.toClientConfig
      { e.calls with read := (x.inputAt e).read 8192 e.nothing }, (x.inputAt e).rest 8192⟩ := by
  simp only [step, hpc]

theorem step_other (hreader : ∀ reader, x.thread.pc ≠ .readResponse reader)
    (hread : x.thread.pc ≠ .read) :
    x.step cfg e = ⟨x.thread.step cfg.toClientConfig e.calls, x.inputAt e⟩ := by
  unfold step
  split
  next reader hpc => exact absurd hpc (hreader reader)
  next hpc => exact absurd hpc hread
  · rfl

/-- In the main loop nothing is left unread. -/
def Drained (x : TlsWorker) : Prop := x.thread.Looping → x.input.unread = []

/-- The worker is back at the head of the loop with something left unread. -/
def Undrained (x : TlsWorker) : Prop := x.thread.pc = .loop ∧ x.input.unread ≠ []

theorem pollsDrained_of (h : x.Drained ∨ x.Undrained) : x.PollsDrained := by
  intro hpc
  rcases h with h | ⟨hloop, -⟩
  · exact h (Or.inr (Or.inl hpc))
  · rw [hpc] at hloop
    cases hloop

theorem drained_step_readResponse {reader : ResponseReader}
    (hpc : x.thread.pc = .readResponse reader) :
    (x.step cfg e).Drained ∨ (Cuts cfg x e ∧ (x.step cfg e).Undrained) := by
  have hout : ¬x.thread.Looping := by simp [WsThread.Looping, hpc]
  by_cases hloop : (x.step cfg e).thread.Looping
  · rw [step_readResponse hpc] at hloop ⊢
    obtain ⟨reader', c, hpc', hread, hdone⟩ := WsThread.looping_step hout hloop
    obtain rfl : reader = reader' := by simpa [hpc] using hpc'
    obtain ⟨unread, hunread, hrest⟩ := SslInput.readChar_done hread
    by_cases hnil : unread = []
    · exact Or.inl fun _ => hrest.trans hnil
    · refine Or.inr ⟨?_, ?_, ?_⟩
      · simp only [Cuts, hpc]
        exact ⟨c, unread, hunread, hnil, hdone⟩
      · exact (WsThread.step_readLast hpc hread hdone).1
      · exact fun h => hnil (hrest.symm.trans h)
  · exact Or.inl fun h => absurd h hloop

theorem drained_step_read (hpc : x.thread.pc = .read) :
    (x.step cfg e).Drained ∨ (Cuts cfg x e ∧ (x.step cfg e).Undrained) := by
  by_cases hloop : (x.step cfg e).thread.Looping
  · rw [step_read hpc] at hloop ⊢
    by_cases hlong : 8192 < (x.inputAt e).decrypt.unread.length
    · refine Or.inr ⟨?_, WsThread.loop_of_read hpc hloop, SslInput.rest_ne_nil hlong⟩
      simp only [Cuts, hpc]
      exact hlong
    · exact Or.inl fun _ => SslInput.rest_eq_nil hlong
  · exact Or.inl fun h => absurd h hloop

/-- Only a step that cuts leaves something unread in the main loop. -/
theorem Drained.step (h : x.Drained) (e : TlsEvent) :
    (x.step cfg e).Drained ∨ (Cuts cfg x e ∧ (x.step cfg e).Undrained) := by
  by_cases hreader : ∃ reader, x.thread.pc = .readResponse reader
  · obtain ⟨reader, hpc⟩ := hreader
    exact drained_step_readResponse hpc
  · by_cases hread : x.thread.pc = .read
    · exact drained_step_read hread
    · have hnot : ∀ reader, x.thread.pc ≠ .readResponse reader := fun reader hpc =>
        hreader ⟨reader, hpc⟩
      rw [step_other hnot hread]
      left
      intro hloop
      by_cases hin : x.thread.Looping
      · exact h hin
      · obtain ⟨reader, c, hpc, -⟩ := WsThread.looping_step hin hloop
        exact absurd hpc (hnot reader)

theorem step_loop (hpc : x.thread.pc = .loop) :
    x.step cfg e = ⟨x.thread.step cfg.toClientConfig e.calls, x.inputAt e⟩ :=
  step_other (by simp [hpc]) (by simp [hpc])

/-- If the loop is left, what is unread no longer matters. -/
theorem Undrained.leave (h : x.Undrained) (hpoll : ¬x.GoesToPoll e) :
    (x.step cfg e).Drained := by
  rw [step_loop h.1]
  intro hloop
  exact absurd hloop (WsThread.step_loop_stopped h.1 fun hrunning => hpoll ⟨h.1, hrunning⟩)

theorem Undrained.poll (h : x.Undrained) (hpoll : x.GoesToPoll e) :
    ¬(x.step cfg e).PollsDrained := by
  obtain ⟨hpc, hrunning, hstores⟩ := hpoll
  rw [step_loop hpc]
  intro hdrained
  exact h.2 (hdrained (WsThread.step_loop_running hpc hrunning hstores))

/-- A step that cuts leaves something unread, wherever the worker goes. -/
theorem Cuts.unread_ne_nil (h : Cuts cfg x e) : (x.step cfg e).input.unread ≠ [] := by
  unfold Cuts at h
  split at h
  next reader hpc =>
    obtain ⟨c, unread, hunread, hne, -⟩ := h
    rw [step_readResponse hpc]
    change ((x.inputAt e).decrypt.unread.drop 1) ≠ []
    rw [hunread]
    exact hne
  next hpc =>
    rw [step_read hpc]
    exact SslInput.rest_ne_nil h
  · exact h.elim

/-- With nothing left unread, the main loop cuts the records of more than 8192 bytes. -/
theorem cuts_read_iff (hpc : x.thread.pc = .read) (hunread : x.input.unread = []) :
    Cuts cfg x e ↔ ∃ record ∈ ((x.inputAt e).records.dropWhile fun record =>
      record.data.isEmpty).head?, 8192 < record.data.length := by
  have hat : (x.inputAt e).unread = [] := hunread
  simp only [Cuts, hpc, SslInput.decrypt, hat]
  cases (x.inputAt e).records.dropWhile fun record => record.data.isEmpty with
  | nil => simp
  | cons record records => simp

/-- On any connection, nothing decrypted is left unread at a `poll` if and only if the loop never
goes on to `poll` from the end of a response inside a record, or from a read of more than 8192
decrypted bytes. -/
theorem polls_drained_iff (cfg : WssConfig) (rxbuf : List UInt8) (events : List TlsEvent) :
    Always (fun x e y => x.step cfg e = y) PollsDrained (start rxbuf) events ↔
      NeverThen (fun x e y => x.step cfg e = y) (Cuts cfg) GoesToPoll (start rxbuf) events := by
  refine always_iff_neverThen (I := Drained) (D := Undrained) (fun x => pollsDrained_of) ?_ ?_ ?_
    ?_ ?_
  · rintro x e _ h rfl
    exact h.step e
  · rintro x e _ h hpoll rfl
    exact h.leave hpoll
  · rintro x e _ e' hcuts rfl hpoll
    exact ⟨hpoll.1, hcuts.unread_ne_nil⟩
  · intro x e h hpoll
    exact ⟨_, rfl, h.poll hpoll⟩
  · rintro (hpc | hpc | hpc)
    · cases hpc
    · cases hpc
    · cases hpc

theorem handshakeStep_running (t : WsThread) (cfg : ClientConfig) (r : CallResults) :
    (t.handshakeStep cfg r).rx.running = t.rx.running := by
  have hfailed : ∀ e, (t.handshakeFailed e).rx.running = t.rx.running := by
    intro e
    unfold WsThread.handshakeFailed
    rw [WsThread.freeTls_eq]
    rfl
  unfold WsThread.handshakeStep
  split
  · split
    · split
      · rfl
      · exact hfailed _
    · rfl
  · split
    · split
      · rfl
      · rfl
      · exact hfailed _
    · exact hfailed _
  · rfl

/-- A handshake goes on running while no other thread stops it. -/
theorem running_step {t : WsThread} {cfg : ClientConfig} {r : CallResults}
    (hpc : (∃ sent, t.pc = .sendRequest sent) ∨ ∃ reader, t.pc = .readResponse reader)
    (hstores : r.storesNotRunning = false) (hrunning : t.rx.running = true) :
    (t.step cfg r).rx.running = true := by
  have hsame : (t.interfere r).rx.running = true := by
    simp [WsThread.interfere, hrunning, hstores]
  have hstep : t.step cfg r = (t.interfere r).handshakeStep cfg r := by
    rcases hpc with ⟨sent, hpc⟩ | ⟨reader, hpc⟩
    · simp only [WsThread.step, WsThread.interfere_pc, hpc]
    · simp only [WsThread.step, WsThread.interfere_pc, hpc]
  rw [hstep, handshakeStep_running, hsame]

/-- The worker reads a response that it accepts up to its end, and no further. -/
theorem reads_response (harrived : e.arrived = []) (hstores : e.calls.storesNotRunning = false)
    {bytes more : List UInt8} {reader : ResponseReader}
    (hread : readResponse cfg.expectedAccept reader bytes = .ok more)
    (hpc : x.thread.pc = .readResponse reader) (hrunning : x.thread.rx.running = true)
    (hinput : x.input.decrypt = ⟨bytes, []⟩) :
    ∃ n y, Run (fun x e y => x.step cfg e = y) x (List.replicate n e) y ∧
      y.thread.pc = .loop ∧ y.thread.rx.running = true ∧ y.input.unread = more := by
  induction bytes generalizing x reader with
  | nil => cases hread
  | cons c bytes ih =>
    have hat : x.inputAt e = x.input := by simp [inputAt, SslInput.arrive, harrived]
    have hchar : (x.inputAt e).readChar e.nothing = .done c :=
      SslInput.readChar_cons (by rw [hat, hinput])
    have hrest : (x.inputAt e).rest 1 = ⟨bytes, []⟩ := by
      rw [hat, SslInput.rest, hinput]
      rfl
    have hstep := @step_readResponse cfg x e reader hpc
    rw [hrest] at hstep
    have hrunning' : (x.thread.step cfg.toClientConfig
        { e.calls with readChar := (x.inputAt e).readChar e.nothing }).rx.running = true :=
      running_step (Or.inr ⟨reader, hpc⟩) hstores hrunning
    rw [readResponse_cons] at hread
    cases hfeed : reader.feed cfg.expectedAccept c with
    | more reader' =>
      rw [hfeed] at hread
      have hnext : (x.step cfg e).thread.pc = .readResponse reader' := by
        rw [hstep]
        exact WsThread.step_readMore hpc hchar hfeed
      have hdecrypt : (x.step cfg e).input.decrypt = ⟨bytes, []⟩ := by
        rw [hstep]
        cases bytes with
        | nil => rfl
        | cons => rfl
      obtain ⟨n, y, hrun, hloop⟩ := ih hread hnext (by rw [hstep]; exact hrunning') hdecrypt
      exact ⟨n + 1, y, Run.cons rfl hrun, hloop⟩
    | done =>
      rw [hfeed] at hread
      refine ⟨1, x.step cfg e, Run.cons rfl (Run.nil _), ?_⟩
      rw [hstep]
      exact ⟨(WsThread.step_readLast hpc hchar hfeed).1, hrunning', Except.ok.inj hread⟩
    | failed err =>
      rw [hfeed] at hread
      cases hread

theorem sends_request (harrived : e.arrived = []) (hstores : e.calls.storesNotRunning = false)
    (hwrite : ∃ n, cfg.request.length ≤ n + 1 ∧ e.calls.write = .done (n + 1))
    (hpc : x.thread.pc = .sendRequest 0) (hrunning : x.thread.rx.running = true) :
    ∃ n y, Run (fun x e y => x.step cfg e = y) x (List.replicate n e) y ∧
      y.thread.pc = .readResponse (.status []) ∧ y.thread.rx.running = true ∧
        y.input = x.input := by
  have hat : ∀ x : TlsWorker, x.inputAt e = x.input := by
    intro x
    simp [inputAt, SslInput.arrive, harrived]
  have hstep : ∀ (x : TlsWorker) sent, x.thread.pc = .sendRequest sent →
      x.step cfg e = ⟨x.thread.step cfg.toClientConfig e.calls, x.input⟩ := by
    intro x sent hsent
    rw [step_other (by simp [hsent]) (by simp [hsent]), hat]
  have hlast : ∀ (x : TlsWorker) sent, x.thread.pc = .sendRequest sent →
      x.thread.rx.running = true → ¬sent < cfg.request.length →
        (x.step cfg e).thread.pc = .readResponse (.status []) ∧
          (x.step cfg e).thread.rx.running = true ∧ (x.step cfg e).input = x.input := by
    intro x sent hsent hrun hall
    rw [hstep x sent hsent]
    exact ⟨WsThread.step_requestSent hsent hall,
      running_step (Or.inl ⟨sent, hsent⟩) hstores hrun, rfl⟩
  by_cases hempty : 0 < cfg.request.length
  · obtain ⟨n, hlen, hdone⟩ := hwrite
    have hsent : (x.step cfg e).thread.pc = .sendRequest (0 + (n + 1)) := by
      rw [hstep x 0 hpc]
      exact WsThread.step_sendRequest hpc hempty hdone
    have hrunning' : (x.step cfg e).thread.rx.running = true := by
      rw [hstep x 0 hpc]
      exact running_step (Or.inl ⟨0, hpc⟩) hstores hrunning
    obtain ⟨hread, hrun, hinput⟩ := hlast (x.step cfg e) _ hsent hrunning' (by omega)
    refine ⟨2, _, Run.cons rfl (Run.cons rfl (Run.nil _)), hread, hrun, ?_⟩
    rw [hinput, hstep x 0 hpc]
  · exact ⟨1, _, Run.cons rfl (Run.nil _), hlast x 0 hpc hrunning hempty⟩

/-- The response and an empty text frame, in one record. -/
def responseAndFrame (digest : Digest) : List UInt8 :=
  ascii "HTTP/1.1 101" ++ (crlf ++ (acceptLine (digestText digest) ++
    (crlf ++ (crlf ++ [0x81, 0x00]))))

theorem responseAndFrame_accepted (digest : Digest) :
    readResponse (digestText digest) (.status []) (responseAndFrame digest) =
      .ok [0x81, 0x00] := by
  rw [responseAndFrame, read_statusLine _ (isLine_of_not_mem (by decide)) (by decide)]
  exact read_acceptLine digest [] [0x81, 0x00]

/-- The first frame comes in the record of the response: it is decrypted, and stays in the `SSL`
while the worker polls the socket. -/
theorem frame_behind_response_waits : ¬∀ (cfg : WssConfig) (events : List TlsEvent),
    Always (fun x e y => x.step cfg e = y) PollsDrained (start []) events := by
  intro hall
  let cfg : WssConfig := ⟨configWith ⟨[], [], [], false⟩, rfl⟩
  let record : TlsRecord := ⟨responseAndFrame cfg.digest, by decide⟩
  let calls : CallResults := ⟨some 1, some 3, .connected, true, 0, some 1, some 2, .done (), [],
    .done (cfg.request.length + 1), .closed, .failed, .closed, false, false⟩
  let e : TlsEvent := ⟨[], calls, .closed⟩
  let connecting : List TlsEvent := ⟨[record], calls, .closed⟩ :: List.replicate 5 e
  have hconnect := run_foldl (step cfg) (start []) connecting
  obtain ⟨n, x, hsend, hpc, hrunning, hinput⟩ := @sends_request cfg
    (connecting.foldl (step cfg) (start [])) e rfl rfl ⟨cfg.request.length, by omega, rfl⟩ rfl rfl
  have hdecrypt : x.input.decrypt = ⟨responseAndFrame cfg.digest, []⟩ := by
    rw [hinput]
    rfl
  obtain ⟨m, y, hread, hloop, hrunning', hunread⟩ := reads_response (e := e) rfl rfl
    (responseAndFrame_accepted cfg.digest) hpc hrunning hdecrypt
  have hrun : Run (fun x e y => step cfg x e = y) (start [])
      (connecting ++ (List.replicate n e ++ (List.replicate m e ++ [e]))) (y.step cfg e) := by
    refine run_append_iff.mpr ⟨_, hconnect, run_append_iff.mpr ⟨x, hsend, ?_⟩⟩
    exact run_append_iff.mpr ⟨y, hread, Run.cons rfl (Run.nil _)⟩
  have hundrained : y.Undrained := ⟨hloop, by rw [hunread]; simp⟩
  exact hundrained.poll ⟨hloop, hrunning', rfl⟩ (hall cfg _ _ _ (List.prefix_refl _) hrun)

end TlsWorker

end ModAudioStream
