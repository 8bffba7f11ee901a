import ModAudioStream.WireIntegrity
import ModAudioStream.Runs

namespace ModAudioStream

/-- A frame that `sendFrame` has written whole. -/
inductive Sent where
  | item (item : SendItem)
  | pong (payload : List UInt8)
  | ping
  | close
deriving DecidableEq, Repr

inductive PollResult where
  | interrupted
  | failed
  | ready (pollin pollout : Bool)

/-- A frame that `processFrame` takes from `rxbuf_`. -/
inductive Received where
  | ping (payload : List UInt8)
  | close
  | other
deriving DecidableEq

inductive RecvResult where
  | data (frames : List Received)
  | again
  | eof
  | error

structure Env where
  poll : PollResult
  recv : RecvResult
  pingDue : Bool

/-- Where the worker is in `threadFunc`, from the main loop on. -/
inductive WorkerPc where
  | loop
  | look
  | poll (hasQueue : Bool)
  | read (pollin pollout : Bool)
  | frames (rest : List Received) (pollout : Bool)
  | closeFlag (pollout : Bool)
  | drain (pollout : Bool)
  | ping
  | sendClose
  | exchange
  | ended
deriving DecidableEq

/-- Where the stopping thread is in `stream_session_cleanup`, from `writeText` on,
with the steps of `disconnect`. -/
inductive StopPc where
  | writeText
  | sendMessage (text : List UInt8)
  | markCleanedUp
  | load
  | storeClosing
  | storeRunning
  | notify
  | join
  | returned
deriving DecidableEq

/-- The connection while it is open. `stopped`, `owed` and `awaiting` only record the
run: whether `disconnect` has stored `running_`, the items accepted before that, and
those of them accepted since the last `drainSendQueue`. -/
structure Session where
  text : Option (List UInt8)
  state : State
  running : Bool
  queue : List SendItem
  sent : List Sent
  worker : WorkerPc
  stop : StopPc
  stopped : Bool
  owed : List SendItem
  awaiting : List SendItem

inductive SessionAct where
  | push (item : SendItem)
  | stop
  | worker (env : Env)

namespace Session

def opened (text : Option (List UInt8)) : Session :=
  ⟨text, .opened, true, [], [], .loop, .writeText, false, [], []⟩

def accept (s : Session) : Option SendItem → Session
  | none => s
  | some item =>
    { s with queue := s.queue ++ [item],
             owed := if s.stopped then s.owed else s.owed ++ [item],
             awaiting := if s.stopped then s.awaiting else s.awaiting ++ [item] }

/-- `drainSendQueue` when every write succeeds. -/
def drain (s : Session) : Session :=
  let out := drainSendQueue (fun item sent => (true, sent ++ [.item item])) s.queue s.sent
  { s with queue := out.1, sent := out.2, awaiting := [] }

def workerStep (s : Session) (env : Env) : Session :=
  match s.worker with
  | .loop => { s with worker := if s.running then .look else .sendClose }
  | .look => { s with worker := .poll (!s.queue.isEmpty) }
  | .poll hasQueue =>
    match env.poll with
    | .interrupted => { s with worker := .loop }
    | .failed => { s with worker := .sendClose }
    | .ready pollin pollout => { s with worker := .read pollin (pollout && hasQueue) }
  | .read false pollout => { s with worker := .drain pollout }
  | .read true pollout =>
    match env.recv with
    | .data frames => { s with worker := .frames frames pollout }
    | .again => { s with worker := .drain pollout }
    | .eof => { s with worker := .sendClose }
    | .error => { s with worker := .sendClose }
  | .frames [] pollout => { s with worker := .drain pollout }
  | .frames (.ping payload :: rest) pollout =>
    { s with sent := s.sent ++ [.pong payload], worker := .frames rest pollout }
  | .frames (.close :: _) pollout => { s with state := .closing, worker := .closeFlag pollout }
  | .frames (.other :: rest) pollout => { s with worker := .frames rest pollout }
  | .closeFlag pollout => { s with running := false, worker := .drain pollout }
  | .drain true => { s.drain with worker := .ping }
  | .drain false => { s with worker := .ping }
  | .ping =>
    if env.pingDue then { s with sent := s.sent ++ [.ping], worker := .loop }
    else { s with worker := .loop }
  | .sendClose => { s with sent := s.sent ++ [.close], worker := .exchange }
  | .exchange => { s with state := .closed, worker := .ended }
  | .ended => s

def stopStep (s : Session) : Session :=
  match s.stop with
  | .writeText =>
    match s.text with
    | none => { s with stop := .markCleanedUp }
    | some text =>
      if s.state = .opened then { s with stop := .sendMessage text }
      else { s with stop := .markCleanedUp }
  | .sendMessage text =>
    { s.accept (sendMessage text s.queue.length) with stop := .markCleanedUp }
  | .markCleanedUp => { s with stop := .load }
  | .load =>
    if s.state ≠ .disconnected ∧ s.state ≠ .closed then { s with stop := .storeClosing }
    else { s with stop := .join }
  | .storeClosing => { s with state := .closing, stop := .storeRunning }
  | .storeRunning => { s with running := false, stopped := true, stop := .notify }
  | .notify => { s with stop := .join }
  | .join => if s.worker = .ended then { s with stop := .returned } else s
  | .returned => s

/-- The item that a step puts on `sendQueue_`. Another thread may push at any time,
since it need not look at `state_` again after it has found `OPEN`. -/
def pushed (s : Session) : SessionAct → Option SendItem
  | .push item => if item.data.isEmpty then none else unlessFull s.queue.length item
  | .stop =>
    match s.stop with
    | .sendMessage text => sendMessage text s.queue.length
    | _ => none
  | .worker _ => none

def step (s : Session) : SessionAct → Session
  | .push item => s.accept (s.pushed (.push item))
  | .stop => s.stopStep
  | .worker env => s.workerStep env

end Session

section WholeWrites

variable {α σ : Type*} {isEmpty : α → Bool} {send : α → σ → Bool × σ}

theorem drainLoop_all_sent (hs : ∀ item s, (send item s).1 = true) {queue : List α}
    (hne : ∀ item ∈ queue, isEmpty item = false) (s : σ) :
    drainLoop isEmpty send queue 0 s = ([], queue.foldl (fun s item => (send item s).2) s) := by
  induction queue generalizing s with
  | nil => exact drainLoop_nil 0 s
  | cons item rest ih =>
    have hsent : send item s = (true, (send item s).2) := by rw [← hs item s]
    rw [drainLoop_sent (by omega) (hne item (by simp)) hsent]
    exact ih (fun x hx => hne x (List.mem_cons_of_mem item hx)) _

end WholeWrites

theorem Session.drain_eq {s : Session} (h : ∀ item ∈ s.queue, item.data.isEmpty = false) :
    s.drain = { s with queue := [], sent := s.sent ++ s.queue.map .item, awaiting := [] } := by
  have hfold : ∀ (queue : List SendItem) (sent : List Sent),
      queue.foldl (fun sent item => sent ++ [Sent.item item]) sent =
        sent ++ queue.map .item := by
    intro queue
    induction queue with
    | nil => simp
    | cons item rest ih => simp [ih]
  unfold drain drainSendQueue
  rw [drainLoop_all_sent (fun _ _ => rfl) h, hfold]

/-- The socket takes every write of up to `room` bytes whole. -/
structure Wire.Takes (w : Wire) (room : Nat) : Prop where
  connected : 0 ≤ w.sockfd
  whole : ∀ k, ∃ n, room ≤ n ∧ w.results k = .wrote n

def wholeWrite (opcode : UInt8) (payload : List UInt8) (w : Wire) : Write :=
  ⟨w.calls + 1, encodeFrame opcode (w.masks w.calls) payload, 0,
    (encodeFrame opcode (w.masks w.calls) payload).length⟩

theorem writeLoop_whole {w : Wire} {frame : List UInt8} {n : Nat} (hpos : 0 < frame.length)
    (hn : frame.length ≤ n) (hw : w.answer = .wrote n) :
    writeLoop frame 0 w = (frame.length, w.record frame 0 frame.length) := by
  have hmin : min n (frame.length - 0) = frame.length := by omega
  rw [writeLoop, if_pos hpos, hw]
  simp only [hmin, if_pos hpos, Nat.zero_add]
  rw [writeLoop, if_neg (Nat.lt_irrefl _)]

theorem sendFrame_whole {w : Wire} {room : Nat} (h : w.Takes room) (opcode : UInt8)
    {payload : List UInt8} (hroom : payload.length + 14 ≤ room) :
    sendFrame opcode payload w =
      (true, { w with calls := w.calls + 1, log := w.log ++ [wholeWrite opcode payload w] }) := by
  obtain ⟨n, hn, hw⟩ := h.whole w.log.length
  have hlen := encodeFrame_length opcode (w.masks w.calls) payload
  have hhead : headerLength payload.length ≤ 14 := by
    unfold headerLength
    split
    · omega
    · split <;> omega
  have hconn := h.connected
  have hloop := @writeLoop_whole { w with calls := w.calls + 1 }
    (encodeFrame opcode (w.masks w.calls) payload) n (encodeFrame_length_pos _ _ _) (by omega) hw
  unfold sendFrame
  rw [if_neg (by omega)]
  simp only [hloop, beq_self_eq_true]
  rfl

/-- What `Session.drain` says of the items holds of the frames on the wire: with a
socket that takes every write whole, `drainSendQueue` writes the frames of the queue in
order and leaves it empty. -/
theorem drainSendQueue_writes_queue {room : Nat} {queue : List SendItem} {w : Wire}
    (h : w.Takes room)
    (hq : ∀ item ∈ queue, item.data.isEmpty = false ∧ item.data.length + 14 ≤ room) :
    ∃ w' writes, drainSendQueue SendSide.sendItem queue w = ([], w') ∧
      w'.log = w.log ++ writes ∧
      List.Forall₂ (fun item wr => ∃ v : Wire,
        wr = wholeWrite (if item.isBinary then 0x2 else 0x1) item.data v) queue writes := by
  induction queue generalizing w with
  | nil => exact ⟨w, [], drainLoop_nil 0 w, (List.append_nil _).symm, .nil⟩
  | cons item rest ih =>
    obtain ⟨hne, hroom⟩ := hq item (by simp)
    have hsent : SendSide.sendItem item w = (true, _) := sendFrame_whole h _ hroom
    obtain ⟨w', writes, hdrain, hlog, hall⟩ :=
      @ih { w with calls := w.calls + 1,
                   log := w.log ++ [wholeWrite (if item.isBinary then 0x2 else 0x1) item.data w] }
        ⟨h.connected, h.whole⟩ fun x hx => hq x (List.mem_cons_of_mem item hx)
    refine ⟨w', _ :: writes, ?_, ?_, .cons ⟨w, rfl⟩ hall⟩
    · have hstep := @drainLoop_sent _ _ (fun item : SendItem => item.data.isEmpty)
        SendSide.sendItem item rest 0 w _ (by omega) hne hsent
      exact hstep.trans hdrain
    · rw [hlog, List.append_assoc, List.singleton_append]

end ModAudioStream
