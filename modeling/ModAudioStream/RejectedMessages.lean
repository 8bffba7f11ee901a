import ModAudioStream.MessageEvents

namespace ModAudioStream

/-- `private_t`, less its mutex, its pointers to code, and `native_sampling`, a parameter here. -/
structure PrivateData (ρ : Type*) where
  sessionId : List UInt8
  wsUri : List UInt8
  sampling : Int
  channels : Int
  audioPaused : Bool
  closeRequested : Bool
  initialMetadata : List UInt8
  sbuffer : List UInt8
  resampler : Option ρ
  hasStreamer : Bool
  rtpPackets : Int
  playback : Playback ρ

/-- What `eventCallback` works on: the fields of the streamer, and the user data of the media
bug when the session has one. -/
structure CallbackState (ρ : Type*) where
  rawAudioActive : Bool
  rawSampleRate : Int
  suppressLog : Bool
  userData : Option (PrivateData ρ)

/-- What `eventCallback` does to the session it locates. -/
inductive CallbackEffect where
  | located (found : Bool)
  | logged (text : List UInt8)
  | notified (event : MessageEvent) (body : CString)
  | rwunlocked

namespace CallbackState

variable {ρ : Type*} (speex : Speex ρ) (native : NativeRate)

/-- The case `MESSAGE` of the switch, up to its log line. -/
def onMessage (s : CallbackState ρ) (pr : ProcessResult) (initOk : Bool) :
    CallbackState ρ × MessageEvent :=
  if pr.ok then
    if pr.audioDataType = ascii "raw" ∧ pr.decodedAudio = [] then
      ({ s with rawAudioActive := true, rawSampleRate := pr.sampleRate }, .json)
    else if pr.decodedAudio ≠ [] then
      let userData := s.userData.map fun tp =>
        { tp with
          playback := (tp.playback.eventCallback speex native pr.sampleRate pr.decodedAudio
            initOk).1 }
      ({ s with userData := userData }, .play)
    else (s, .play)
  else (s, .json)

/-- `eventCallback` for `MESSAGE`. -/
def eventCallback (libs : MessageLibs) (sid : List UInt8) (s : CallbackState ρ)
    (located initOk : Bool) (message : CString) :
    Except DecodeError (CallbackState ρ × List CallbackEffect) :=
  match tryProcessMessage libs sid message with
  | .error e => .error e
  | .ok pr =>
    let msg := if pr.ok then pr.rewrittenJsonData else message
    if !located then .ok (s, [.located false])
    else
      let errors := pr.errors.map fun e => CallbackEffect.logged (e ++ ascii "\n")
      let out := s.onMessage speex native pr initOk
      let response :=
        if s.suppressLog then [] else [.logged (ascii "response: " ++ msg.bytes ++ ascii "\n")]
      .ok (out.1, .located true :: errors ++ .notified out.2 msg :: response ++ [.rwunlocked])

/-- The state that the events of messages depend on. -/
def audio (s : CallbackState ρ) : StreamerAudio ρ :=
  ⟨s.rawAudioActive, s.rawSampleRate, s.userData.map PrivateData.playback⟩

end CallbackState

def CallbackEffect.isLock : CallbackEffect → Bool
  | .located _ | .rwunlocked => true
  | .logged _ | .notified _ _ => false

def CallbackEffect.event : CallbackEffect → Option (MessageEvent × CString)
  | .notified event body => some (event, body)
  | .located _ | .logged _ | .rwunlocked => none

section

variable (libs : MessageLibs) (sid : List UInt8)

/-- The handler leaves nothing of what `base64_decode` throws. -/
theorem tryStreamAudio_eq (root : CJson) :
    tryStreamAudio libs sid root = .ok (processStreamAudio libs sid root) := by
  simp only [tryStreamAudio, processStreamAudio]
  cases root.getObjectItem (ascii "data") with
  | none => rfl
  | some jsonData =>
    dsimp only
    cases jsonData.getObjectItem (ascii "audioData") with
    | none => rfl
    | some jsonAudio =>
      dsimp only
      cases jsonAudio.asString with
      | none => rfl
      | some text =>
        dsimp only
        split
        next => rfl
        next =>
          split
          next => rfl
          next =>
            cases base64Decode text with
            | error e => rfl
            | ok decoded =>
              cases libs.print (jsonData.detachItem (ascii "audioData")) with
              | none => rfl
              | some jsonString => rfl

theorem tryProcessMessage_eq (message : CString) :
    tryProcessMessage libs sid message = .ok (processMessage libs sid message) := by
  simp only [tryProcessMessage, processMessage]
  cases libs.parse message.bytes with
  | none => rfl
  | some root =>
    dsimp only
    cases root.getObjectCstr (ascii "type") with
    | none => rfl
    | some jsonType =>
      dsimp only
      split
      next => rfl
      next =>
        split
        next => rfl
        next => exact tryStreamAudio_eq libs sid root

end

namespace CallbackState

variable {ρ : Type*} (speex : Speex ρ) (native : NativeRate) (libs : MessageLibs)
  (sid : List UInt8) (s : CallbackState ρ) (initOk : Bool) (message : CString)

theorem eventCallback_lost :
    s.eventCallback speex native libs sid false initOk message = .ok (s, [.located false]) := by
  rw [eventCallback, tryProcessMessage_eq]
  rfl

/-- The effects on a session that is located, by the event and its body. -/
def effects (pr : ProcessResult) (event : MessageEvent) (body : CString) : List CallbackEffect :=
  .located true :: pr.errors.map (fun e => .logged (e ++ ascii "\n")) ++ .notified event body ::
    (if s.suppressLog then [] else [.logged (ascii "response: " ++ body.bytes ++ ascii "\n")]) ++
      [.rwunlocked]

theorem filter_lock_effects (pr : ProcessResult) (event : MessageEvent) (body : CString) :
    (s.effects pr event body).filter CallbackEffect.isLock = [.located true, .rwunlocked] := by
  have herrors : (pr.errors.map fun e => CallbackEffect.logged (e ++ ascii "\n")).filter
      CallbackEffect.isLock = [] := by
    refine List.filter_eq_nil_iff.mpr ?_
    intro effect heffect
    obtain ⟨e, -, rfl⟩ := List.mem_map.mp heffect
    exact Bool.false_ne_true
  rw [effects, List.filter_append, List.cons_append, List.filter_cons_of_pos rfl,
    List.filter_append, herrors]
  cases s.suppressLog with
  | true => rfl
  | false => rfl

theorem filterMap_event_effects (pr : ProcessResult) (event : MessageEvent) (body : CString) :
    (s.effects pr event body).filterMap CallbackEffect.event = [(event, body)] := by
  have herrors : (pr.errors.map fun e => CallbackEffect.logged (e ++ ascii "\n")).filterMap
      CallbackEffect.event = [] := by
    refine List.filterMap_eq_nil_iff.mpr ?_
    intro effect heffect
    obtain ⟨e, -, rfl⟩ := List.mem_map.mp heffect
    rfl
  rw [effects, List.filterMap_append, List.cons_append, List.filterMap_cons_none rfl,
    List.filterMap_append, herrors]
  cases s.suppressLog with
  | true => rfl
  | false => rfl

theorem eventCallback_located :
    let pr := processMessage libs sid message
    let out := s.onMessage speex native pr initOk
    s.eventCallback speex native libs sid true initOk message =
      .ok (out.1, s.effects pr out.2 (if pr.ok then pr.rewrittenJsonData else message)) := by
  rw [eventCallback, tryProcessMessage_eq]
  rfl

/-- The states and the events are those of `messageCallback`. -/
theorem eventCallback_audio (located : Bool) : ∃ s' effects,
    s.eventCallback speex native libs sid located initOk message = .ok (s', effects) ∧
      (s'.audio, effects.filterMap CallbackEffect.event) =
        s.audio.messageCallback speex native libs sid located initOk message := by
  cases located with
  | false => exact ⟨s, [.located false], s.eventCallback_lost speex native libs sid initOk message,
      rfl⟩
  | true =>
    refine ⟨_, _, s.eventCallback_located speex native libs sid initOk message, ?_⟩
    rw [filterMap_event_effects]
    cases hok : (processMessage libs sid message).ok with
    | false => simp [onMessage, StreamerAudio.messageCallback, hok]
    | true =>
      by_cases hsilent : (processMessage libs sid message).audioDataType = ascii "raw" ∧
          (processMessage libs sid message).decodedAudio = []
      · simp [onMessage, StreamerAudio.messageCallback, hok, hsilent, audio]
      · by_cases hdecoded : (processMessage libs sid message).decodedAudio = []
        · have htype : (processMessage libs sid message).audioDataType ≠ ascii "raw" :=
            fun hraw => hsilent ⟨hraw, hdecoded⟩
          simp [onMessage, StreamerAudio.messageCallback, hok, hdecoded, htype]
        · simp [onMessage, StreamerAudio.messageCallback, hok, hdecoded, audio,
            Function.comp_def]

/-- A message that is not accepted leaves the session and the streamer as they were; whoever has
located the session releases it, and the text itself is all that is fired. -/
theorem rejected_message_no_effect (located : Bool)
    (h : ¬∃ pr, tryProcessMessage libs sid message = .ok pr ∧ pr.ok = true) :
    ∃ effects, s.eventCallback speex native libs sid located initOk message = .ok (s, effects) ∧
      effects.filter CallbackEffect.isLock =
        (if located then [.located true, .rwunlocked] else [.located false]) ∧
      effects.filterMap CallbackEffect.event =
        if located then [(MessageEvent.json, message)] else [] := by
  cases located with
  | false => exact ⟨[.located false], s.eventCallback_lost speex native libs sid initOk message,
      rfl, rfl⟩
  | true =>
    have hok : (processMessage libs sid message).ok = false := by
      rw [← Bool.not_eq_true]
      intro htrue
      exact h ⟨_, tryProcessMessage_eq libs sid message, htrue⟩
    have hstate : s.onMessage speex native (processMessage libs sid message) initOk =
        (s, .json) := by
      rw [onMessage, hok]
      rfl
    have hcall := s.eventCallback_located speex native libs sid initOk message
    dsimp only at hcall
    rw [hstate, hok] at hcall
    refine ⟨_, hcall, ?_, ?_⟩
    · exact s.filter_lock_effects _ _ _
    · exact s.filterMap_event_effects _ _ _

end CallbackState

/-- One character of Base64, for which `std::string::at` throws, and a session that plays. -/
theorem lone_character_no_effect : ∃ (libs : MessageLibs) (message : CString),
    (processMessage libs (ascii "uuid") message).errors =
      [ascii "(uuid) processMessage - base64 decode error: " ++ (DecodeError.outOfRange 1 1).what] ∧
    let tp : PrivateData Unit := {
      sessionId := ascii "uuid", wsUri := ascii "ws://host", sampling := 8000, channels := 1
      audioPaused := false, closeRequested := false, initialMetadata := [], sbuffer := []
      resampler := none, hasStreamer := true, rtpPackets := 1
      playback := .start ⟨8000, by decide, by decide⟩ true }
    let s : CallbackState Unit := ⟨true, 16000, false, some tp⟩
    ∃ effects, s.eventCallback ⟨fun _ _ => (), fun _ _ _ => ([], ()), id⟩
        ⟨8000, by decide, by decide⟩ libs (ascii "uuid") true true message = .ok (s, effects) ∧
      effects.filter CallbackEffect.isLock =
        (if true then [.located true, .rwunlocked] else [.located false]) ∧
      effects.filterMap CallbackEffect.event =
        if true then [(MessageEvent.json, message)] else [] := by
  let data : CJson := .object [(ascii "audioDataType", .string (ascii "pcmu")),
    (ascii "audioData", .string (ascii "A"))]
  let root : CJson := .object [(ascii "type", .string (ascii "streamAudio")),
    (ascii "data", data)]
  let message : CString := ⟨ascii "\x7b\"type\":\"streamAudio\",\"data\":\x7b" ++
    ascii "\"audioDataType\":\"pcmu\",\"audioData\":\"A\"\x7d\x7d", by decide⟩
  let libs : MessageLibs := .single message root ⟨[], by decide⟩
  have hroot : libs.parse message.bytes = some root := single_parse (by decide) root _
  have hpr : processMessage libs (ascii "uuid") message =
      processStreamAudio libs (ascii "uuid") root := by
    rw [processMessage, hroot]
    rfl
  refine ⟨libs, message, ?_, ?_⟩
  · rw [hpr]
    decide
  · apply CallbackState.rejected_message_no_effect
    rintro ⟨pr, hok, htrue⟩
    rw [tryProcessMessage_eq, hpr] at hok
    rw [← Except.ok.inj hok] at htrue
    revert htrue
    decide

end ModAudioStream
