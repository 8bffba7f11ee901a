import ModAudioStream.ChainVerification
import ModAudioStream.InboundAudio

namespace ModAudioStream

/-- `EVENT_CONNECT`, `EVENT_DISCONNECT`, `EVENT_ERROR` and the events of messages: what the
worker calls `m_notify` for. -/
inductive SessionEvent where
  | connect
  | disconnect
  | error
  | message (event : MessageEvent)
deriving DecidableEq, Repr

/-- What the open callback builds. -/
def connectedJson : CJson := .object [(ascii "status", .string (ascii "connected"))]

/-- What the error and the close callback build: `text` goes through `c_str()`. -/
def statusJson (status : List UInt8) (code : Nat) (name text : List UInt8) : CJson :=
  .object [(ascii "status", .string status),
    (ascii "message", .object [(ascii "code", .number code (ascii (toString code))),
      (name, .string (cStr text).bytes)])]

def errorJson (code : Nat) (msg : List UInt8) : CJson :=
  statusJson (ascii "error") code (ascii "error") msg

def closeJson (code : Nat) (reason : List UInt8) : CJson :=
  statusJson (ascii "disconnected") code (ascii "reason") reason

/-- The text that `eventCallback` gets, or `""` for the NULL of a print that fails. -/
def printed (libs : MessageLibs) (json : CJson) : CString :=
  (libs.print json).getD (cStr [])

/-- The event of a message by its result. -/
def ProcessResult.event (pr : ProcessResult) : MessageEvent :=
  if pr.ok ∧ ¬(pr.audioDataType = ascii "raw" ∧ pr.decodedAudio = []) then .play else .json

/-- The event that a callback is for, with its body. Binary data has none. -/
def Callback.event (libs : MessageLibs) (sid : List UInt8) :
    Callback → Option (SessionEvent × CString)
  | .onOpen => some (.connect, printed libs connectedJson)
  | .onMessage msg =>
    let pr := processMessage libs sid (cStr msg)
    some (.message pr.event, if pr.ok then pr.rewrittenJsonData else cStr msg)
  | .onBinary _ => none
  | .onError code msg => some (.error, printed libs (errorJson code msg))
  | .onClose code reason => some (.disconnect, printed libs (closeJson code reason))

/-- Where the worker is in a callback: in none, past its test of `isCleanedUp`, or before
`media_bug_close`. -/
inductive CallbackPc where
  | idle
  | eventCallback (c : Callback)
  | mediaBugClose
deriving DecidableEq

/-- Where a stop is in `stream_session_cleanup`; `refused` has found no bug. -/
inductive StreamStopPc where
  | claim
  | markCleanedUp
  | disconnect (pc : DisconnectPc)
  | refused
deriving DecidableEq

/-- What `disconnect` stores from another thread, as `WsThread.interfere` takes it. -/
def storing (closing notRunning : Bool) : CallResults :=
  ⟨none, none, .failed, false, 0, none, none, .closed, [], .closed, .closed, .failed, .closed,
    closing, notRunning⟩

/-- A stream with its worker, its channel and a stop. `pending` are the callbacks of the last
call of the worker that have not been run; the streamer has its playback fields while the bug is
the channel private. Once the error callback has cleaned up itself, the streamer is `destroyed`
under the worker, and the run is followed no further. `events` only records the run. -/
structure EventRun (ρ : Type*) where
  worker : WsThread
  pending : List Callback
  callback : CallbackPc
  streamer : StreamerAudio ρ
  cleanupStarted : Bool
  cleanedUp : Bool
  destroyed : Bool
  stop : StreamStopPc
  events : List (SessionEvent × CString)

/-- What the worker's calls give, whether the session is found, and whether Speex can be
initialised. -/
structure EventEnv where
  calls : CallResults
  located : Bool
  initOk : Bool

/-- `attach` is `switch_channel_set_private` of the start; `media` is whatever the media thread
and other commands make of the playback fields. -/
inductive EventAct (ρ : Type*) where
  | worker (env : EventEnv)
  | attach (playback : Playback ρ)
  | media (playback : Playback ρ)
  | stop

namespace EventRun

variable {ρ : Type*} (speex : Speex ρ) (native : NativeRate) (libs : MessageLibs)
  (sid : List UInt8) (cfg : ClientConfig)

/-- When the worker starts; `rate` is `m_rawSampleRate`. -/
def start (rate : Int) : EventRun ρ :=
  ⟨.start [], [], .idle, ⟨false, rate, none⟩, false, false, false, .claim, []⟩

/-- `m_notify`, when the session has been found. -/
def notify (s : EventRun ρ) (located : Bool) (event : SessionEvent) (body : CString) :
    EventRun ρ :=
  if located then { s with events := s.events ++ [(event, body)] } else s

/-- A callback of `bindCallbacks` past its tests, up to `media_bug_close`. -/
def eventCallback (s : EventRun ρ) (env : EventEnv) : Callback → EventRun ρ
  | .onOpen =>
    { s.notify env.located .connect (printed libs connectedJson) with callback := .idle }
  | .onMessage msg =>
    let out := s.streamer.messageCallback speex native libs sid env.located env.initOk (cStr msg)
    { s with streamer := out.1,
             events := s.events ++ out.2.map fun e => (.message e.1, e.2),
             callback := .idle }
  | .onBinary data =>
    { s with streamer := s.streamer.binaryCallback speex native env.located env.initOk data,
             callback := .idle }
  | .onError code msg =>
    { s.notify env.located .error (printed libs (errorJson code msg)) with
      callback := if env.located then .mediaBugClose else .idle }
  | .onClose code reason =>
    { s.notify env.located .disconnect (printed libs (closeJson code reason)) with
      streamer := s.streamer.closeCallback, callback := .idle }

/-- `cleanup_started` is set and the channel private is taken. -/
def claim (s : EventRun ρ) : EventRun ρ :=
  { s with cleanupStarted := true, streamer := { s.streamer with playback := none } }

/-- `media_bug_close`: the `CLOSE` callback comes on the same thread, and its cleanup gives up
the last owners of the streamer but the callback. -/
def mediaBugClose (s : EventRun ρ) : EventRun ρ :=
  if s.streamer.playback.isSome then
    { s.claim with cleanedUp := true, destroyed := true, callback := .idle }
  else { s with callback := .idle }

def workerStep (s : EventRun ρ) (env : EventEnv) : EventRun ρ :=
  if s.destroyed then s
  else
    match s.callback with
    | .eventCallback c => s.eventCallback speex native libs sid env c
    | .mediaBugClose => s.mediaBugClose
    | .idle =>
      match s.pending with
      | c :: pending =>
        -- a callback that `markCleanedUp` has cleared does as little as one that sees the mark
        if s.cleanedUp then { s with pending := pending }
        else { s with pending := pending, callback := .eventCallback c }
      | [] =>
        let worker := s.worker.step cfg
          { env.calls with storesClosing := false, storesNotRunning := false }
        { s with worker := worker, pending := worker.callbacks.drop s.worker.callbacks.length }

/-- Nothing of the worker is left to be joined. -/
def joinable (s : EventRun ρ) : Bool :=
  s.worker.pc = .returned && s.pending.isEmpty && s.callback = .idle

def stopStep (s : EventRun ρ) : EventRun ρ :=
  match s.stop with
  | .claim =>
    if s.streamer.playback.isSome then { s.claim with stop := .markCleanedUp }
    else { s with stop := .refused }
  | .markCleanedUp => { s with cleanedUp := true, stop := .disconnect .load }
  | .disconnect .load =>
    { s with stop := .disconnect (if s.worker.rx.state ≠ .disconnected ∧ s.worker.rx.state ≠ .closed
        then .storeClosing else .join) }
  | .disconnect .storeClosing =>
    { s with worker := s.worker.interfere (storing true false), stop := .disconnect .storeRunning }
  | .disconnect .storeRunning =>
    { s with worker := s.worker.interfere (storing false true), stop := .disconnect .notify }
  | .disconnect .notify => { s with stop := .disconnect .join }
  | .disconnect .join => if s.joinable then { s with stop := .disconnect .returned } else s
  | .disconnect .returned | .refused => s

def step (s : EventRun ρ) : EventAct ρ → EventRun ρ
  | .worker env => s.workerStep speex native libs sid cfg env
  | .attach playback =>
    if s.cleanupStarted then s
    else { s with streamer := { s.streamer with playback := some playback } }
  | .media playback =>
    if s.streamer.playback.isSome then
      { s with streamer := { s.streamer with playback := some playback } }
    else s
  | .stop => s.stopStep

end EventRun

def told (libs : MessageLibs) (sid : List UInt8) (callbacks : List Callback) :
    List (SessionEvent × CString) :=
  callbacks.filterMap (Callback.event libs sid)

/-- The callback that is past its tests. -/
def CallbackPc.running : CallbackPc → List Callback
  | .eventCallback c => [c]
  | .idle | .mediaBugClose => []

@[simp] theorem CallbackPc.running_idle : CallbackPc.idle.running = [] := rfl

namespace EventRun

variable {ρ : Type*} (speex : Speex ρ) (native : NativeRate) (libs : MessageLibs)
  (sid : List UInt8) (cfg : ClientConfig)

/-- The callbacks that the worker still has to run. -/
def outstanding (s : EventRun ρ) : List Callback := s.callback.running ++ s.pending

/-- What has been told and what is outstanding is what the worker has called back for. -/
def Accurate (s : EventRun ρ) : Prop :=
  s.events ++ told libs sid s.outstanding = told libs sid s.worker.callbacks

end EventRun

namespace EventRun

section

variable {ρ : Type*} {speex : Speex ρ} {native : NativeRate} {libs : MessageLibs}
  {sid : List UInt8} {cfg : ClientConfig} {s t : EventRun ρ}

/-- What a callback that runs leaves as it is. -/
structure Ran (s t : EventRun ρ) : Prop where
  worker : t.worker = s.worker
  pending : t.pending = s.pending
  callback : t.callback = .idle ∨ t.callback = .mediaBugClose
  cleanedUp : t.cleanedUp = s.cleanedUp
  stop : t.stop = s.stop

theorem Ran.running (h : Ran s t) : t.callback.running = [] := by
  rcases h.callback with hc | hc
  · rw [hc, CallbackPc.running_idle]
  · rw [hc]
    rfl

/-- What a step does to the callbacks and the events. -/
inductive Moves (libs : MessageLibs) (sid : List UInt8) (s : EventRun ρ) (a : EventAct ρ)
    (t : EventRun ρ) : Prop
  | beside (hact : ∀ env, a = .worker env → s.destroyed = true ∨ s.callback = .mediaBugClose)
      (hworker : t.worker.callbacks = s.worker.callbacks) (hpending : t.pending = s.pending)
      (hcallback : t.callback.running = s.callback.running) (hevents : t.events = s.events)
      (hmark : s.cleanedUp = true → t.cleanedUp = true)
      (hidle : s.callback = .idle → t.callback = .idle)
  | called (hpending : s.pending = []) (hcallback : s.callback = .idle)
      (hworker : t.worker.callbacks = s.worker.callbacks ++ t.pending)
      (hkept : t.callback = .idle ∧ t.events = s.events ∧ t.cleanedUp = s.cleanedUp)
  | begun (c : Callback) (hpending : s.pending = c :: t.pending) (hcallback : s.callback = .idle)
      (hrunning : t.callback = .eventCallback c) (hmark : s.cleanedUp = false)
      (hkept : t.worker = s.worker ∧ t.events = s.events ∧ t.cleanedUp = s.cleanedUp)
  | dropped (c : Callback) (hpending : s.pending = c :: t.pending) (hcallback : s.callback = .idle)
      (hmark : s.cleanedUp = true) (hdestroyed : s.destroyed = false)
      (hact : ∃ env, a = .worker env)
      (hkept : t.worker = s.worker ∧ t.callback = .idle ∧ t.events = s.events ∧
        t.cleanedUp = s.cleanedUp)
  | ran (c : Callback) (env : EventEnv) (hact : a = .worker env)
      (hdestroyed : s.destroyed = false) (hcallback : s.callback = .eventCallback c)
      (hran : Ran s t)
      (hevents : t.events = s.events ++ if env.located then (c.event libs sid).toList else [])

theorem told_append (l m : List Callback) :
    told libs sid (l ++ m) = told libs sid l ++ told libs sid m :=
  List.filterMap_append

theorem told_cons (c : Callback) (l : List Callback) :
    told libs sid (c :: l) = (c.event libs sid).toList ++ told libs sid l := by
  cases h : c.event libs sid with
  | none => simp [told, h]
  | some e => simp [told, h]

/-- In the order of the callbacks, and each at most once. -/
def Tells (libs : MessageLibs) (sid : List UInt8) (s : EventRun ρ) : Prop :=
  (s.events ++ told libs sid s.outstanding).Sublist (told libs sid s.worker.callbacks)

theorem Tells.step {a : EventAct ρ} (h : s.Tells libs sid) (hmoves : Moves libs sid s a t) :
    t.Tells libs sid := by
  unfold Tells outstanding at *
  cases hmoves with
  | beside _ hworker hpending hcallback hevents =>
    rwa [hworker, hpending, hcallback, hevents]
  | called hpending hcallback hworker hkept =>
    rw [hpending, hcallback] at h
    have h : s.events.Sublist (told libs sid s.worker.callbacks) := by simpa [told] using h
    rw [hkept.1, hkept.2.1, hworker, CallbackPc.running_idle, List.nil_append, told_append]
    exact List.Sublist.append h (List.Sublist.refl _)
  | begun c hpending hcallback hrunning _ hkept =>
    rw [hpending, hcallback] at h
    rwa [hrunning, hkept.1, hkept.2.1]
  | dropped c hpending hcallback _ _ _ hkept =>
    rw [hpending, hcallback] at h
    rw [hkept.1, hkept.2.1, hkept.2.2.1]
    refine List.Sublist.trans (List.Sublist.append (List.Sublist.refl _) ?_) h
    exact List.Sublist.filterMap _ (List.sublist_cons_self c t.pending)
  | ran c env _ _ hcallback hran hevents =>
    rw [hcallback] at h
    rw [hran.worker, hran.pending, hran.running, hevents]
    refine List.Sublist.trans ?_ h
    rw [List.append_assoc]
    refine List.Sublist.append (List.Sublist.refl _) ?_
    change List.Sublist _ (told libs sid (c :: s.pending))
    rw [told_cons]
    refine List.Sublist.append ?_ (List.Sublist.refl _)
    split
    · exact List.Sublist.refl _
    · exact List.nil_sublist _

/-- The worker is at a stage of its protocol, or stuck. -/
def Staged (s : EventRun ρ) : Prop := s.worker.Stage ∨ s.worker.Stuck

theorem Staged.interfere {worker : WsThread} (h : worker.Stage ∨ worker.Stuck)
    (r : CallResults) : (worker.interfere r).Stage ∨ (worker.interfere r).Stuck := by
  rcases h with h | h
  · exact Or.inl (h.interfere r)
  · exact Or.inr ⟨h.pc, h.callbacks⟩

/-- Whatever its calls give, the worker has begun the callbacks of a whole run. -/
theorem Staged.begun (h : s.Staged) : ∃ more, Complete (s.worker.callbacks ++ more) := by
  rcases h with h | h
  · exact h.protocol.begun
  · rcases h.callbacks with hcalls | ⟨received, hreceived, hcalls⟩
    · rw [hcalls]
      exact ⟨_, Complete.refused 6 [] 1006 []⟩
    · rw [hcalls]
      exact ⟨[.onClose 1006 []], Complete.served hreceived 1006 []⟩

/-- Once the mark is set only the callback past its tests still tells of its event. -/
theorem Moves.marked {a : EventAct ρ} (hmoves : Moves libs sid s a t) (h : s.cleanedUp = true) :
    t.cleanedUp = true ∧ ∃ last, t.events = s.events ++ last ∧
      last.length + t.callback.running.length ≤ s.callback.running.length := by
  cases hmoves with
  | beside _ _ _ hcallback hevents hmark =>
    exact ⟨hmark h, [], by rw [hevents, List.append_nil], by simp [hcallback]⟩
  | called _ hcallback _ hkept | dropped _ _ hcallback _ _ _ hkept =>
    refine ⟨by simp [hkept, h], [], by simp [hkept], ?_⟩
    simp [hkept]
  | begun c _ _ _ hmark =>
    rw [hmark] at h
    cases h
  | ran c env _ _ hcallback hran hevents =>
    refine ⟨hran.cleanedUp.trans h, _, hevents, ?_⟩
    have hone : (c.event libs sid).toList.length ≤ 1 := by cases c.event libs sid <;> simp
    rw [hran.running, hcallback]
    split
    · exact hone
    · exact Nat.zero_le _

theorem Moves.idle {a : EventAct ρ} (hmoves : Moves libs sid s a t) (h : s.cleanedUp = true)
    (hidle : s.callback = .idle) : t.callback = .idle := by
  cases hmoves with
  | beside _ _ _ _ _ _ hkept => exact hkept hidle
  | called _ _ _ hkept => exact hkept.1
  | dropped _ _ _ _ _ _ hkept => exact hkept.2.1
  | begun c _ _ _ hmark =>
    rw [hmark] at h
    cases h
  | ran c env _ _ hcallback =>
    rw [hidle] at hcallback
    cases hcallback

end

end EventRun

end ModAudioStream
