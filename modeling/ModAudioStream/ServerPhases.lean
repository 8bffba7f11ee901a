import ModAudioStream.ConformingResponse
import ModAudioStream.ServerFrames
import ModAudioStream.TransientResults
import ModAudioStream.WorkerProtocol

namespace ModAudioStream

open ResponseReader

/-- A piece of what a server sends is some of its frames and a part of one more. -/
theorem prefix_of_frames {fs : List ServerFrame} {last : ServerFrame} {tail buf : List UInt8}
    (hp : tail <+: last.encode) (hne : tail ≠ last.encode)
    (h : buf <+: fs.flatMap ServerFrame.encode ++ tail) :
    ∃ done left part, fs = done ++ left ∧ buf = done.flatMap ServerFrame.encode ++ part ∧
      nextFrame part = none ∧ NoWrap part := by
  induction fs generalizing buf with
  | nil =>
    have hpre : buf <+: last.encode := h.trans hp
    have hpart : buf ≠ last.encode := by
      rintro rfl
      exact hne (hp.eq_of_length_le h.length_le)
    exact ⟨[], [], buf, rfl, rfl, unfinished_server_frame hpre hpart⟩
  | cons f fs ih =>
    rw [List.flatMap_cons, List.append_assoc] at h
    rcases List.prefix_or_prefix_of_prefix h (List.prefix_append f.encode _) with hpre | hpre
    · by_cases hwhole : buf = f.encode
      · refine ⟨[f], fs, [], rfl, by simp [hwhole], ?_⟩
        exact unfinished_server_frame (List.nil_prefix (l := f.encode)) fun hnil => by
          have hlen := congrArg List.length hnil
          simp [ServerFrame.encode, ServerFrame.head] at hlen
      · exact ⟨[], f :: fs, buf, rfl, rfl, unfinished_server_frame hpre hwhole⟩
    · obtain ⟨more, rfl⟩ := hpre
      obtain ⟨done, left, part, rfl, rfl, hpart⟩ := ih ((List.prefix_append_right_inj _).mp h)
      exact ⟨f :: done, left, part, rfl, by simp, hpart⟩

/-- A buffer that holds no whole frame holds none of the frames that are left. -/
theorem left_of_part {left : List ServerFrame} {part tail : List UInt8}
    (h : part = left.flatMap ServerFrame.encode ++ tail) (hpart : nextFrame part = none) :
    left = [] := by
  cases left with
  | nil => rfl
  | cons f left =>
    rw [h, List.flatMap_cons, List.append_assoc, f.nextFrame_encode] at hpart
    cases hpart

/-- The callbacks that a frame leads to. -/
def ServerFrame.delivery (f : ServerFrame) : List Callback :=
  (f.reactions true true).filterMap Reaction.callback

/-- The callbacks of a connection over which these frames come. -/
def deliveries (fs : List ServerFrame) : List Callback :=
  .onOpen :: (fs.takeWhile fun f => !f.closes).flatMap ServerFrame.delivery

/-- The callback at the end of a connection that the server ends, after a Close frame or without
one. -/
def farewell (fs : List ServerFrame) : Callback :=
  if fs.any ServerFrame.closes then .onClose 1000 (ascii "Connection closed")
  else .onClose 1006 (ascii "Connection closed unexpectedly")

namespace WsThread

variable {t : WsThread} {cfg : ClientConfig} {r : CallResults}

theorem interfere_quiet (hclosing : r.storesClosing = false)
    (hrunning : r.storesNotRunning = false) : t.interfere r = t := by
  simp [interfere, hclosing, hrunning]

/-- What a step before the response leaves alone when it does not end `threadFunc`. -/
structure Goes (t t' : WsThread) : Prop where
  rx : t'.rx = t.rx
  callbacks : t'.callbacks = t.callbacks
  reader : ∀ reader, t'.pc = .readResponse reader → reader = .status []

theorem goes_afterConnect {t' : WsThread} (hrx : t'.rx = t.rx)
    (hcallbacks : t'.callbacks = t.callbacks) : t.Goes (t'.afterConnect cfg) := by
  refine ⟨hrx, hcallbacks, fun reader h => ?_⟩
  rw [afterConnect] at h
  dsimp only at h
  split at h
  · cases h
  · cases h

theorem goes_connectStep (hend : (t.connectStep cfg r).isOver = false)
    (hpc : ∀ reader, t.pc ≠ .readResponse reader) : t.Goes (t.connectStep cfg r) := by
  unfold connectStep at hend ⊢
  split
  next hresolve =>
    simp only [hresolve] at hend
    split
    next h => simp [h, isOver, finish] at hend
    next => exact ⟨rfl, rfl, fun reader h => by cases h⟩
  next res hsocket =>
    simp only [hsocket] at hend
    split
    next h => simp [h, isOver, finish] at hend
    next => exact ⟨rfl, rfl, fun reader h => by cases h⟩
  next res hconnect =>
    simp only [hconnect] at hend
    dsimp only
    split
    next => exact goes_afterConnect rfl rfl
    next => exact ⟨rfl, rfl, fun reader h => by cases h⟩
    next h => simp [h, isOver] at hend
  next hawait =>
    simp only [hawait] at hend
    split
    next => exact ⟨rfl, rfl, fun reader h => by cases h⟩
    next h => simp [h, isOver] at hend
  next herror =>
    simp only [herror] at hend
    split
    next => exact goes_afterConnect rfl rfl
    next h => simp [h, isOver] at hend
  next => exact ⟨rfl, rfl, fun reader h => absurd h (hpc reader)⟩

theorem goes_tlsStep (hend : (t.tlsStep cfg r).isOver = false)
    (hpc : ∀ reader, t.pc ≠ .readResponse reader) : t.Goes (t.tlsStep cfg r) := by
  unfold tlsStep at hend ⊢
  split
  next hctx =>
    simp only [hctx] at hend
    split
    next h => simp [h, isOver] at hend
    next => exact ⟨rfl, rfl, fun reader h => by cases h⟩
  next hssl =>
    simp only [hssl] at hend
    split
    next h => simp [h, isOver] at hend
    next => exact ⟨rfl, rfl, fun reader h => by cases h⟩
  next hconnect =>
    simp only [hconnect] at hend
    split
    next => exact ⟨rfl, rfl, fun reader h => by cases h⟩
    next h =>
      split at hend
      next hdone => exact absurd hdone h
      next => simp [isOver] at hend
  next => exact ⟨rfl, rfl, fun reader h => absurd h (hpc reader)⟩

theorem goes_sendRequest {sent : Nat} (hpc : t.pc = .sendRequest sent)
    (hend : (t.handshakeStep cfg r).isOver = false) : t.Goes (t.handshakeStep cfg r) := by
  simp only [handshakeStep, hpc] at hend ⊢
  split
  next hmore =>
    rw [if_pos hmore] at hend
    split
    next => exact ⟨rfl, rfl, fun reader h => by cases h⟩
    next hwrite =>
      split at hend
      next n hdone => exact absurd hdone (hwrite n)
      next => simp [isOver] at hend
  next => exact ⟨rfl, rfl, fun reader h => by cases h; rfl⟩

theorem step_opened {reader : ResponseReader} {c : UInt8} (hquiet : t.interfere r = t)
    (hpc : t.pc = .readResponse reader) (h : r.readChar = .done c)
    (hdone : reader.feed cfg.expectedAccept c = .done) : t.step cfg r = t.opened := by
  simp only [step, hquiet, hpc, handshakeStep, h, hdone]

theorem step_fed {reader reader' : ResponseReader} {c : UInt8} (hquiet : t.interfere r = t)
    (hpc : t.pc = .readResponse reader) (h : r.readChar = .done c)
    (hmore : reader.feed cfg.expectedAccept c = .more reader') :
    t.step cfg r = { t with pc := .readResponse reader' } := by
  simp only [step, hquiet, hpc, handshakeStep, h, hmore]

/-- The last callback says whether a Close had come. -/
theorem cleanup_farewell (t : WsThread) : t.cleanup.callbacks = t.callbacks ++
    [if t.rx.state = .closing then .onClose 1000 (ascii "Connection closed")
      else .onClose 1006 (ascii "Connection closed unexpectedly")] := by
  have hfree : (if 0 ≤ t.sockfd then t.freeSsl.freeSslCtx.closeSocket else t).callbacks =
      t.callbacks ∧
      (if 0 ≤ t.sockfd then t.freeSsl.freeSslCtx.closeSocket else t).rx = t.rx := by
    rw [freeTls_eq]
    split
    · exact ⟨rfl, rfl⟩
    · exact ⟨rfl, rfl⟩
  unfold cleanup
  rw [← hfree.1, ← hfree.2]
  generalize (if 0 ≤ t.sockfd then t.freeSsl.freeSslCtx.closeSocket else t) = t
  dsimp only
  split
  · rfl
  · rfl

end WsThread

theorem deliveries_append {fs : List ServerFrame} (h : fs.any ServerFrame.closes = false)
    (more : List ServerFrame) : deliveries (fs ++ more) =
      deliveries fs ++ (more.takeWhile fun f => !f.closes).flatMap ServerFrame.delivery := by
  have hall : ∀ f ∈ fs, (!f.closes) = true := by
    intro f hf
    rw [List.any_eq_false] at h
    simpa using h f hf
  unfold deliveries
  rw [List.takeWhile_append_of_pos hall, List.takeWhile_eq_self_iff.mpr hall, List.flatMap_append,
    List.cons_append]

/-- What follows the first Close makes no difference. -/
theorem takeWhile_append_of_closes {fs : List ServerFrame} (h : fs.any ServerFrame.closes = true)
    (more : List ServerFrame) :
    (fs ++ more).takeWhile (fun f => !f.closes) = fs.takeWhile fun f => !f.closes := by
  rw [List.takeWhile_append]
  split
  next hall =>
    have hself := (List.takeWhile_prefix _).eq_of_length hall
    rw [List.takeWhile_eq_self_iff] at hself
    obtain ⟨f, hf, hcloses⟩ := List.any_eq_true.mp h
    have hopen := hself f hf
    rw [hcloses] at hopen
    cases hopen
  next => rfl

namespace Exchange

/-- A step of the worker with what the server has sent: reads take it in order. -/
def advance (cfg : ClientConfig) (x : Exchange) (r : CallResults) : Exchange where
  thread := x.thread.step cfg r
  unread :=
    match x.thread.pc, r.read with
    | .readResponse _, _ => x.unread.tail
    | .read, .done bytes => x.unread.drop bytes.length
    | _, _ => x.unread

/-- The calls do what they can while the server only sends and then closes: none that the
handshakes need fails or has to wait, a read of the main loop waits, or gives some of what is
left, or says that the server has closed behind all of it, and nobody disconnects. -/
structure Obliges (cfg : ClientConfig) (x : Exchange) (r : CallResults) : Prop where
  served : x.Served cfg r
  ready : ¬x.Waits cfg r
  closing : r.storesClosing = false
  running : r.storesNotRunning = false
  poll : x.thread.pc = .poll → r.poll ≠ .failed
  read : x.thread.pc = .read → r.read.isTransient x.thread.ssl.isSome = true ∨
    (∃ bytes, bytes <+: x.unread ∧ r.read = .done bytes) ∨ (x.unread = [] ∧ r.read = .closed)

/-- What is left of the server's bytes behind its response. -/
def response (cfg : ClientConfig) (x : Exchange) : Except HandshakeFailure (List UInt8) :=
  match x.thread.pc with
  | .readResponse reader => readResponse cfg.expectedAccept reader x.unread
  | _ => readResponse cfg.expectedAccept (.status []) x.unread

/-- The worker is in its main loop. -/
def InLoop (x : Exchange) : Prop :=
  x.thread.pc = .loop ∨ x.thread.pc = .poll ∨ x.thread.pc = .read

/-- How far a connection has come over which `fs` and `tail` come behind the response. -/
inductive Phase (cfg : ClientConfig) (fs : List ServerFrame) (tail : List UInt8) (x : Exchange) :
    Prop
  | connecting (hpending : x.Pending cfg)
      (hresponse : x.response cfg = .ok (fs.flatMap ServerFrame.encode ++ tail))
      (hrx : x.thread.rx = ⟨[], .connecting, true, true, true, []⟩)
      (hcalls : x.thread.callbacks = [])
  | listening (taken left : List ServerFrame) (part : List UInt8) (hloop : x.InLoop)
      (hframes : fs = taken ++ left) (hopen : taken.any ServerFrame.closes = false)
      (hbytes : part ++ x.unread = left.flatMap ServerFrame.encode ++ tail)
      (hpart : nextFrame part = none)
      (hrx : x.thread.rx = ⟨part, .opened, true, true, true, []⟩)
      (hcalls : x.thread.callbacks = deliveries taken)
  | closing (hpc : x.thread.pc = .loop) (hcloses : fs.any ServerFrame.closes = true)
      (hrunning : x.thread.rx.running = false) (hstate : x.thread.rx.state = .closing)
      (hcalls : x.thread.callbacks = deliveries fs)
  | ended (hpc : x.thread.pc = .returned)
      (hcalls : x.thread.callbacks = deliveries fs ++ [farewell fs])

variable {cfg : ClientConfig} {x : Exchange} {r : CallResults} {fs : List ServerFrame}
  {tail : List UInt8}

theorem Pending.not_inLoop (h : x.Pending cfg) : ¬x.InLoop ∧ x.thread.isOver = false := by
  constructor
  · rintro (hpc | hpc | hpc)
    · simp [Pending, hpc] at h
    · simp [Pending, hpc] at h
    · simp [Pending, hpc] at h
  · cases hpc : x.thread.pc with
    | returned | crashed | spinning => simp [Pending, hpc] at h
    | _ => simp [WsThread.isOver, hpc]

/-- Before the response, a step that does not end `threadFunc` leaves the buffer, the callbacks
and what is to come alone. -/
theorem Pending.goes (h : x.Pending cfg) (hquiet : x.thread.interfere r = x.thread)
    (hpc : ∀ reader, x.thread.pc ≠ .readResponse reader)
    (hend : (x.thread.step cfg r).isOver = false) :
    x.thread.Goes (x.thread.step cfg r) := by
  simp only [WsThread.step, hquiet] at hend ⊢
  cases hx : x.thread.pc with
  | resolve | socket | connect | awaitConnect | socketError =>
    simp only [hx] at hend
    exact WsThread.goes_connectStep hend hpc
  | sslCtxNew | sslNew | sslConnect =>
    simp only [hx] at hend
    exact WsThread.goes_tlsStep hend hpc
  | sendRequest sent =>
    simp only [hx] at hend
    exact WsThread.goes_sendRequest hx hend
  | readResponse reader => exact absurd hx (hpc reader)
  | loop | poll | read | returned | crashed | spinning => simp [Pending, hx] at h

theorem advance_eq_step (h : x.thread.pc ≠ .read) : x.advance cfg r = x.step cfg r := by
  unfold advance step
  split
  next hpc => rw [hpc]
  next hpc _ => exact absurd hpc h
  next hreader _ =>
    split
    next reader hreading => exact absurd hreading (hreader reader)
    next => rfl

theorem Obliges.quiet (h : x.Obliges cfg r) : x.thread.interfere r = x.thread :=
  WsThread.interfere_quiet h.closing h.running

theorem phase_before (hpending : x.Pending cfg)
    (hresponse : x.response cfg = .ok (fs.flatMap ServerFrame.encode ++ tail))
    (hrx : x.thread.rx = ⟨[], .connecting, true, true, true, []⟩)
    (hcalls : x.thread.callbacks = []) (hpc : ∀ reader, x.thread.pc ≠ .readResponse reader)
    (h : x.Obliges cfg r) : (x.step cfg r).Phase cfg fs tail := by
  have hbefore : x.response cfg = readResponse cfg.expectedAccept (.status []) x.unread := by
    unfold response
    split
    next reader hx => exact absurd hx (hpc reader)
    next => rfl
  rcases pending_next hpending h.served h.ready with ⟨hloop, hopen⟩ | ⟨hnext, -⟩
  · have hend : (x.thread.step cfg r).isOver = false := by
      have hpc' : (x.thread.step cfg r).pc = .loop := hloop
      simp [WsThread.isOver, hpc']
    have hgoes := hpending.goes h.quiet hpc hend
    have hnone : (x.step cfg r).thread.callbacks = [] := hgoes.callbacks.trans hcalls
    rw [hnone] at hopen
    exact absurd hopen List.not_mem_nil
  · have hgoes := hpending.goes h.quiet hpc hnext.not_inLoop.2
    refine .connecting hnext ?_ (hgoes.rx.trans hrx) (hgoes.callbacks.trans hcalls)
    rw [← hresponse, hbefore, ← @step_unread cfg x r hpc]
    unfold response
    split
    next reader hx => rw [hgoes.reader reader hx]
    next => rfl

theorem phase_reading {reader : ResponseReader} (hpc : x.thread.pc = .readResponse reader)
    (hresponse : x.response cfg = .ok (fs.flatMap ServerFrame.encode ++ tail))
    (hrx : x.thread.rx = ⟨[], .connecting, true, true, true, []⟩)
    (hcalls : x.thread.callbacks = []) (h : x.Obliges cfg r) :
    (x.step cfg r).Phase cfg fs tail := by
  have hread : x.response cfg = readResponse cfg.expectedAccept reader x.unread := by
    simp only [response, hpc]
  rw [hread] at hresponse
  have hserved := h.served
  simp only [Served, hpc] at hserved
  have hunread : (x.step cfg r).unread = x.unread.tail := by simp [step, hpc]
  cases hx : x.unread with
  | nil =>
    rw [hx] at hresponse
    cases hresponse
  | cons c unread =>
    rw [hx] at hresponse hserved hunread
    have hchar : r.readChar = .done c := hserved c rfl
    rw [readResponse_cons] at hresponse
    cases hfeed : reader.feed cfg.expectedAccept c with
    | more reader' =>
      rw [hfeed] at hresponse
      have hstep : (x.step cfg r).thread = { x.thread with pc := .readResponse reader' } :=
        WsThread.step_fed h.quiet hpc hchar hfeed
      have hnext : (x.step cfg r).response cfg =
          .ok (fs.flatMap ServerFrame.encode ++ tail) := by
        simp only [response, hstep, hunread]
        exact hresponse
      refine .connecting ?_ hnext (by rw [hstep]; exact hrx) (by rw [hstep]; exact hcalls)
      simp only [Pending, hstep, hunread]
      exact ⟨_, hresponse⟩
    | done =>
      rw [hfeed] at hresponse
      have hrest : unread = fs.flatMap ServerFrame.encode ++ tail := Except.ok.inj hresponse
      have hstep : (x.step cfg r).thread = x.thread.opened :=
        WsThread.step_opened h.quiet hpc hchar hfeed
      refine .listening [] fs [] ?_ rfl rfl ?_ rfl ?_ ?_
      · exact Or.inl (by rw [hstep]; rfl)
      · rw [hunread]
        exact hrest
      · rw [hstep]
        simp only [WsThread.opened, WsThread.call, WsThread.setState, hrx]
      · rw [hstep]
        simp only [WsThread.opened, WsThread.call, WsThread.setState, hcalls]
        rfl
    | failed e =>
      rw [hfeed] at hresponse
      cases hresponse

/-- A read of the main loop takes the frames that it completes. -/
theorem phase_receive {taken left : List ServerFrame} {part bytes : List UInt8}
    {last : ServerFrame} (hp : tail <+: last.encode) (hne : tail ≠ last.encode)
    (hquiet : x.thread.interfere r = x.thread) (hpc : x.thread.pc = .read)
    (hopen : taken.any ServerFrame.closes = false)
    (hbytes : part ++ x.unread = left.flatMap ServerFrame.encode ++ tail)
    (hrx : x.thread.rx = ⟨part, .opened, true, true, true, []⟩)
    (hcalls : x.thread.callbacks = deliveries taken)
    (htaken : bytes <+: x.unread) (hread : r.read = .done bytes) :
    (x.advance cfg r).Phase cfg (taken ++ left) tail := by
  obtain ⟨rest, hrest⟩ := htaken
  have hbuf : part ++ bytes <+: left.flatMap ServerFrame.encode ++ tail := by
    rw [← hbytes, ← hrest, ← List.append_assoc]
    exact List.prefix_append _ _
  obtain ⟨done, left', part', rfl, hdone, hpart, hwrap⟩ := prefix_of_frames hp hne hbuf
  have hreceiving : (x.thread.receiving bytes).rxbuf =
      done.flatMap ServerFrame.encode ++ part' := by
    rw [WsThread.receiving, hrx]
    exact hdone
  obtain ⟨rx, hrx', habsorbs⟩ := @processFrame_absorbs (x.thread.receiving bytes)
    (by rw [hreceiving]; exact noWrap_server hwrap)
  rw [hreceiving] at habsorbs
  obtain ⟨hout, hrunning, hstate, hrxbuf⟩ := absorbs_server_frames hpart habsorbs
  have honMessage := habsorbs.onMessage
  have honBinary := habsorbs.onBinary
  simp only [WsThread.receiving, hrx, List.nil_append] at hout hrunning hstate honMessage honBinary
  have hstep : (x.advance cfg r).thread =
      { x.thread with
        rx := { rx with out := [] }
        callbacks := x.thread.callbacks ++ rx.out.filterMap Reaction.callback
        pc := .loop } := by
    simp only [advance, WsThread.step, hquiet, hpc, WsThread.loopStep, hread, WsThread.receive,
      hrx']
  have hunread : (x.advance cfg r).unread = rest := by
    simp only [advance, hpc, hread, ← hrest, List.drop_left]
  have hdelivered : rx.out.filterMap Reaction.callback =
      (done.takeWhile fun f => !f.closes).flatMap ServerFrame.delivery := by
    rw [hout, List.filterMap_flatMap]
    rfl
  cases hcloses : done.any ServerFrame.closes with
  | true =>
    simp only [hcloses, if_true] at hrunning hstate
    have hall : (taken ++ (done ++ left')).any ServerFrame.closes = true := by simp [hcloses]
    refine .closing (by rw [hstep]) hall (by rw [hstep]; exact hrunning)
      (by rw [hstep]; exact hstate) ?_
    rw [hstep, deliveries_append hopen, takeWhile_append_of_closes hcloses, ← hdelivered, ← hcalls]
  | false =>
    simp only [hcloses, Bool.false_eq_true, if_false] at hrunning hstate
    have hnone : (taken ++ done).any ServerFrame.closes = false := by simp [hopen, hcloses]
    refine .listening (taken ++ done) left' part' (Or.inl (by rw [hstep]))
      (List.append_assoc _ _ _).symm hnone ?_ hpart ?_ ?_
    · rw [hunread]
      rw [← hrest, ← List.append_assoc, hdone, List.flatMap_append, List.append_assoc,
        List.append_assoc] at hbytes
      exact List.append_cancel_left hbytes
    · rw [hstep]
      rw [Receiver.mk.injEq]
      exact ⟨hrxbuf hcloses, hstate, hrunning, honMessage, honBinary, rfl⟩
    · rw [hstep, deliveries_append hopen, ← hdelivered, ← hcalls]

theorem phase_listening {taken left : List ServerFrame} {part : List UInt8} {last : ServerFrame}
    (hp : tail <+: last.encode) (hne : tail ≠ last.encode) (h : x.Obliges cfg r)
    (hloop : x.InLoop) (hopen : taken.any ServerFrame.closes = false)
    (hbytes : part ++ x.unread = left.flatMap ServerFrame.encode ++ tail)
    (hpart : nextFrame part = none)
    (hrx : x.thread.rx = ⟨part, .opened, true, true, true, []⟩)
    (hcalls : x.thread.callbacks = deliveries taken) :
    (x.advance cfg r).Phase cfg (taken ++ left) tail := by
  have hstay {pc : WsThreadPc} (hpc : pc = .loop ∨ pc = .poll ∨ pc = .read)
      (hthread : (x.advance cfg r).thread = { x.thread with pc := pc })
      (hunread : (x.advance cfg r).unread = x.unread) :
      (x.advance cfg r).Phase cfg (taken ++ left) tail := by
    refine .listening taken left part ?_ rfl hopen ?_ hpart ?_ ?_
    · rw [InLoop, hthread]
      exact hpc
    · rw [hunread, hbytes]
    · rw [hthread, hrx]
    · rw [hthread, hcalls]
  rcases hloop with hpc | hpc | hpc
  · refine hstay (Or.inr (Or.inl rfl)) ?_ (by simp only [advance, hpc])
    simp only [advance, WsThread.step, h.quiet, hpc, WsThread.loopStep, hrx, if_true]
  · cases hpoll : r.poll with
    | interrupted =>
      refine hstay (Or.inl rfl) ?_ (by simp only [advance, hpc])
      simp only [advance, WsThread.step, h.quiet, hpc, WsThread.loopStep, hpoll]
    | failed => exact absurd hpoll (h.poll hpc)
    | ready pollin pollout =>
      refine @hstay (if pollin then .read else .loop) ?_ ?_ (by simp only [advance, hpc])
      · cases pollin with
        | true => exact Or.inr (Or.inr rfl)
        | false => exact Or.inl rfl
      · simp only [advance, WsThread.step, h.quiet, hpc, WsThread.loopStep, hpoll]
  · rcases h.read hpc with hwait | ⟨bytes, htaken, hread⟩ | ⟨hnone, hread⟩
    · cases hread : r.read with
      | done bytes => simp [hread, IoResult.isTransient] at hwait
      | closed => simp [hread, IoResult.isTransient] at hwait
      | failed errno sslError =>
        rw [hread] at hwait
        have hwait : (IoResult.failed errno sslError : IoResult Unit).isTransient
            x.thread.ssl.isSome = true := hwait
        refine hstay (Or.inl rfl) ?_ (by simp only [advance, hpc, hread])
        simp only [advance, WsThread.step, h.quiet, hpc, WsThread.loopStep, hread, hwait, if_true]
    · exact phase_receive hp hne h.quiet hpc hopen hbytes hrx hcalls htaken hread
    · -- the server has closed behind its last whole frame
      rw [hnone, List.append_nil] at hbytes
      obtain rfl := left_of_part hbytes hpart
      have hstep : (x.advance cfg r).thread = x.thread.cleanup := by
        simp only [advance, WsThread.step, h.quiet, hpc, WsThread.loopStep, hread]
      refine .ended (by rw [hstep, WsThread.cleanup_pc]) ?_
      rw [List.append_nil, hstep, WsThread.cleanup_farewell, hrx, hcalls, farewell, hopen]
      rfl

theorem phase_closing (h : x.Obliges cfg r) (hpc : x.thread.pc = .loop)
    (hcloses : fs.any ServerFrame.closes = true) (hrunning : x.thread.rx.running = false)
    (hstate : x.thread.rx.state = .closing) (hcalls : x.thread.callbacks = deliveries fs) :
    (x.advance cfg r).thread.pc = .returned ∧ (x.advance cfg r).Phase cfg fs tail := by
  have hstep : (x.advance cfg r).thread = x.thread.cleanup := by
    simp only [advance, WsThread.step, h.quiet, hpc, WsThread.loopStep, hrunning,
      Bool.false_eq_true, if_false]
  have hreturned : (x.advance cfg r).thread.pc = .returned := by
    rw [hstep, WsThread.cleanup_pc]
  refine ⟨hreturned, .ended hreturned ?_⟩
  rw [hstep, WsThread.cleanup_farewell, hstate, hcalls, farewell, hcloses]
  rfl

/-- The phases follow each other. -/
theorem Phase.advance {last : ServerFrame} (hp : tail <+: last.encode) (hne : tail ≠ last.encode)
    (hphase : x.Phase cfg fs tail) (h : x.Obliges cfg r) : (x.advance cfg r).Phase cfg fs tail := by
  cases hphase with
  | connecting hpending hresponse hrx hcalls =>
    have hread : x.thread.pc ≠ .read := fun hpc => hpending.not_inLoop.1 (Or.inr (Or.inr hpc))
    rw [advance_eq_step hread]
    by_cases hpc : ∃ reader, x.thread.pc = .readResponse reader
    · obtain ⟨reader, hpc⟩ := hpc
      exact phase_reading hpc hresponse hrx hcalls h
    · exact phase_before hpending hresponse hrx hcalls (not_exists.mp hpc) h
  | listening taken left part hloop hframes hopen hbytes hpart hrx hcalls =>
    rw [hframes]
    exact phase_listening hp hne h hloop hopen hbytes hpart hrx hcalls
  | closing hpc hcloses hrunning hstate hcalls =>
    exact (phase_closing h hpc hcloses hrunning hstate hcalls).2
  | ended hpc hcalls =>
    have hover : x.thread.isOver = true := by simp [WsThread.isOver, hpc]
    have hstep : (x.advance cfg r).thread = x.thread := by
      simp only [Exchange.advance]
      rw [WsThread.step_over hover, h.quiet]
    exact .ended (by rw [hstep, hpc]) (by rw [hstep, hcalls])

end Exchange

end ModAudioStream
