import ModAudioStream.MessageEvents
import ModAudioStream.PlaybackAudio

namespace ModAudioStream

/-- The `type` of a message, if it is JSON and has one. -/
def messageType (libs : MessageLibs) (message : CString) : Option (List UInt8) :=
  (libs.parse message.bytes).bind (·.getObjectCstr (ascii "type"))

def IsRawAudio (libs : MessageLibs) (message : CString) : Prop :=
  messageType libs message = some (ascii "rawAudio")

instance (libs : MessageLibs) (message : CString) : Decidable (IsRawAudio libs message) :=
  inferInstanceAs (Decidable (_ = _))

/-- The `sampleRate` that the data of a message gives. -/
def givenRate (libs : MessageLibs) (message : CString) : Option Int :=
  (libs.parse message.bytes).bind fun root =>
    (root.getObjectItem (ascii "data")).bind fun jd =>
      (jd.getObjectItem (ascii "sampleRate")).map CJson.valueint

/-- A `streamAudio` message that is accepted and whose audio comes to nothing, with the rate that
its result has: an empty text of type raw, or Opus without samples. -/
inductive SilentAudio (libs : MessageLibs) (message : CString) : Int → Prop
  | raw (data : CJson) (decoded : List UInt8) (hmessage : IsStreamAudio libs message data)
      (h : Playable libs data decoded) (htype : audioType data = ascii "raw")
      (hempty : data.getObjectCstr (ascii "audioData") = some []) :
      SilentAudio libs message (rateOf data 0)
  | opus (data : CJson) (decoded : List UInt8) (hmessage : IsStreamAudio libs message data)
      (h : Playable libs data decoded) (htype : audioType data = ascii "opus")
      (hempty : libs.opusDecode decoded = []) : SilentAudio libs message 48000

namespace StreamerAudio

variable {ρ : Type*} (speex : Speex ρ) (native : NativeRate)

/-- `onBinaryData`. -/
def binaryCallback (r : StreamerAudio ρ) (located initOk : Bool) (data : List UInt8) :
    StreamerAudio ρ :=
  if !r.rawAudioActive || data.isEmpty then r
  else if !located then r
  else
    let playback := r.playback.map fun p =>
      (p.onBinaryData speex native r.rawAudioActive r.rawSampleRate data initOk).1
    { r with playback := playback }

/-- What the close callback does to it. -/
def closeCallback (r : StreamerAudio ρ) : StreamerAudio ρ := { r with rawAudioActive := false }

/-- The part of `stream_data_init` that is about `STREAM_SAMPLE_RATE`. -/
def initSampleRate (r : StreamerAudio ρ) (rawSampleRateVar : Option CString) : StreamerAudio ρ :=
  match rawSampleRateVar with
  | none => r
  | some text =>
    let rate := atoi text.bytes
    if 8000 ≤ rate ∧ rate.tmod 8000 = 0 then { r with rawSampleRate := rate } else r

end StreamerAudio

section

variable {libs : MessageLibs} {sid : List UInt8} {message : CString}

theorem IsStreamAudio.type {data : CJson} (h : IsStreamAudio libs message data) :
    messageType libs message = some (ascii "streamAudio") := by
  obtain ⟨root, hroot, htype, -⟩ := h
  rw [messageType, hroot]
  exact htype

theorem SilentAudio.type {rate : Int} (h : SilentAudio libs message rate) :
    messageType libs message = some (ascii "streamAudio") := by
  cases h with
  | raw data decoded hmessage => exact hmessage.type
  | opus data decoded hmessage => exact hmessage.type

theorem SilentAudio.not_rawAudio {rate : Int} (h : SilentAudio libs message rate) :
    ¬IsRawAudio libs message := by
  intro hraw
  rw [IsRawAudio, h.type] at hraw
  exact absurd hraw (by decide)

theorem SilentAudio.isRawRate {rate : Int} (h : SilentAudio libs message rate) :
    isRawRate rate = true := by
  cases h with
  | raw data decoded hmessage h htype => exact h.rate htype
  | opus => decide

theorem processMessage_rawAudio (h : IsRawAudio libs message) :
    ∃ root, libs.parse message.bytes = some root ∧
      processMessage libs sid message = processRawAudio root := by
  obtain ⟨root, hroot, htype⟩ := Option.bind_eq_some_iff.mp h
  rcases processMessage_cases libs sid message with ⟨-, hother⟩ | ⟨root', hroot', hkind⟩
  · exact absurd htype (hother root hroot).1
  · obtain rfl := Option.some.inj (hroot.symm.trans hroot')
    rcases hkind with ⟨-, hpr⟩ | ⟨hstream, -⟩
    · exact ⟨root, hroot, hpr⟩
    · rw [htype] at hstream
      exact absurd hstream (by decide)

theorem processRawAudio_rate {root : CJson} (hroot : libs.parse message.bytes = some root) :
    (processRawAudio root).sampleRate = (givenRate libs message).getD 8000 := by
  unfold processRawAudio givenRate
  rw [hroot, Option.bind_some]
  cases root.getObjectItem (ascii "data") with
  | none => rfl
  | some jd => rfl

/-- The result for silent audio is the one by which `eventCallback` tells a `rawAudio` message. -/
theorem processMessage_silent {rate : Int} (h : SilentAudio libs message rate) :
    (processMessage libs sid message).ok = true ∧
      ((processMessage libs sid message).audioDataType = ascii "raw" ∧
        (processMessage libs sid message).decodedAudio = []) ∧
      (processMessage libs sid message).sampleRate = rate := by
  cases h with
  | raw data decoded hmessage h htype hempty =>
    obtain ⟨body, hbody⟩ := Option.isSome_iff_exists.mp h.printed
    have hnil : decoded = [] := h.decoded_eq_nil_iff.mpr hempty
    rw [processMessage_playable sid hmessage h hbody]
    refine ⟨rfl, (playResult_silent_iff body).mpr (Or.inl ⟨htype, hnil⟩), ?_⟩
    rw [playResult, ProcessResult.setAudio, if_pos (Or.inl htype)]
    exact if_pos htype
  | opus data decoded hmessage h htype hempty =>
    obtain ⟨body, hbody⟩ := Option.isSome_iff_exists.mp h.printed
    rw [processMessage_playable sid hmessage h hbody]
    refine ⟨rfl, (playResult_silent_iff body).mpr (Or.inr ⟨htype, hempty⟩), ?_⟩
    rw [playResult, ProcessResult.setAudio, if_neg (by rw [htype]; decide), if_pos htype]

/-- An accepted message that looks like a `rawAudio` message is one, or silent audio. -/
theorem silentAudio_of_ok (hraw : ¬IsRawAudio libs message)
    (hok : (processMessage libs sid message).ok = true)
    (hsilent : (processMessage libs sid message).audioDataType = ascii "raw" ∧
      (processMessage libs sid message).decodedAudio = []) :
    ∃ rate, SilentAudio libs message rate := by
  rcases processMessage_cases libs sid message with ⟨hpr, -⟩ | ⟨root, hroot, hkind⟩
  · rw [hpr] at hok
    cases hok
  · rcases hkind with ⟨htype, -⟩ | ⟨htype, hpr⟩
    · refine absurd ?_ hraw
      rw [IsRawAudio, messageType, hroot]
      exact htype
    · have hok' := hok
      rw [hpr] at hok'
      obtain ⟨data, decoded, hdata, h⟩ := processStreamAudio_ok hok'
      obtain ⟨body, hbody⟩ := Option.isSome_iff_exists.mp h.printed
      have hmessage : IsStreamAudio libs message data := ⟨root, hroot, htype, hdata⟩
      rw [processMessage_playable sid hmessage h hbody, playResult_silent_iff] at hsilent
      rcases hsilent with ⟨htype, hnil⟩ | ⟨htype, hnil⟩
      · exact ⟨_, .raw data decoded hmessage h htype (h.decoded_eq_nil_iff.mp hnil)⟩
      · exact ⟨_, .opus data decoded hmessage h htype hnil⟩

end

namespace StreamerAudio

variable {ρ : Type*} {speex : Speex ρ} {native : NativeRate} {libs : MessageLibs}
  {sid : List UInt8} {message : CString} {r : StreamerAudio ρ} {initOk : Bool}

/-- The mode and the rate are left alone. -/
def SameMode (r r' : StreamerAudio ρ) : Prop :=
  r'.rawAudioActive = r.rawAudioActive ∧ r'.rawSampleRate = r.rawSampleRate

theorem messageCallback_unlocated :
    (r.messageCallback speex native libs sid false initOk message).1 = r := rfl

theorem messageCallback_configures (hok : (processMessage libs sid message).ok = true)
    (hsilent : (processMessage libs sid message).audioDataType = ascii "raw" ∧
      (processMessage libs sid message).decodedAudio = []) :
    (r.messageCallback speex native libs sid true initOk message).1 =
      { r with rawAudioActive := true,
               rawSampleRate := (processMessage libs sid message).sampleRate } := by
  simp [messageCallback, hok, hsilent]

theorem messageCallback_rawAudio (h : IsRawAudio libs message) :
    (r.messageCallback speex native libs sid true initOk message).1 =
      { r with rawAudioActive := true,
               rawSampleRate := (givenRate libs message).getD 8000 } := by
  obtain ⟨root, hroot, hpr⟩ := @processMessage_rawAudio libs sid message h
  rw [messageCallback_configures (by rw [hpr]; rfl) (by rw [hpr]; exact ⟨rfl, rfl⟩), hpr,
    processRawAudio_rate hroot]

theorem messageCallback_silentAudio {rate : Int} (h : SilentAudio libs message rate) :
    (r.messageCallback speex native libs sid true initOk message).1 =
      { r with rawAudioActive := true, rawSampleRate := rate } := by
  obtain ⟨hok, hsilent, hrate⟩ := @processMessage_silent libs sid message rate h
  rw [messageCallback_configures hok hsilent, hrate]

theorem messageCallback_other (hraw : ¬IsRawAudio libs message)
    (hsilent : ∀ rate, ¬SilentAudio libs message rate) (located : Bool) :
    r.SameMode (r.messageCallback speex native libs sid located initOk message).1 := by
  unfold messageCallback
  dsimp only
  split
  · exact ⟨rfl, rfl⟩
  · split
    next hok =>
      split
      next hlooks =>
        obtain ⟨rate, h⟩ := silentAudio_of_ok hraw hok hlooks
        exact absurd h (hsilent rate)
      next =>
        split
        · exact ⟨rfl, rfl⟩
        · exact ⟨rfl, rfl⟩
    next => exact ⟨rfl, rfl⟩

theorem binaryCallback_sameMode (located : Bool) (data : List UInt8) :
    r.SameMode (r.binaryCallback speex native located initOk data) := by
  unfold binaryCallback
  split
  · exact ⟨rfl, rfl⟩
  · split
    · exact ⟨rfl, rfl⟩
    · exact ⟨rfl, rfl⟩

theorem initSampleRate_active (r : StreamerAudio ρ) (rawSampleRateVar : Option CString) :
    (r.initSampleRate rawSampleRateVar).rawAudioActive = r.rawAudioActive := by
  unfold initSampleRate
  split
  · rfl
  · dsimp only
    split
    · rfl
    · rfl

end StreamerAudio

/-- What happens to the streamer: a text or a binary message, with whether the session can be
located and a resampler created, the close, and the look of `stream_data_init` at
`STREAM_SAMPLE_RATE`. -/
inductive RawAct where
  | text (message : CString) (located initOk : Bool)
  | binary (data : List UInt8) (located initOk : Bool)
  | close
  | initSampleRate

/-- A run: the streamer, whether a `rawAudio` message was received since the connection opened,
and the rate of the latest one that gave one. -/
structure RawRun (ρ : Type*) where
  streamer : StreamerAudio ρ
  received : Bool
  latest : Option Int

namespace RawRun

variable {ρ : Type*} (speex : Speex ρ) (native : NativeRate) (libs : MessageLibs)
  (sid : List UInt8) (rawSampleRateVar : Option CString)

def start (playback : Option (Playback ρ)) : RawRun ρ := ⟨⟨false, 8000, playback⟩, false, none⟩

def step (r : RawRun ρ) : RawAct → RawRun ρ
  | .text message located initOk =>
    { streamer := (r.streamer.messageCallback speex native libs sid located initOk message).1
      received := r.received || decide (IsRawAudio libs message)
      latest := if IsRawAudio libs message then (givenRate libs message).or r.latest
        else r.latest }
  | .binary data located initOk =>
    { r with streamer := r.streamer.binaryCallback speex native located initOk data }
  | .close => { r with streamer := r.streamer.closeCallback, received := false }
  | .initSampleRate => { r with streamer := r.streamer.initSampleRate rawSampleRateVar }

end RawRun

def RawStep {ρ : Type*} (speex : Speex ρ) (native : NativeRate) (libs : MessageLibs)
    (sid : List UInt8) (rawSampleRateVar : Option CString) (r : RawRun ρ) (a : RawAct)
    (r' : RawRun ρ) : Prop := r.step speex native libs sid rawSampleRateVar a = r'

namespace RawRun

variable {ρ : Type*} {speex : Speex ρ} {native : NativeRate} {libs : MessageLibs}
  {sid : List UInt8} {rawSampleRateVar : Option CString}

/-- Raw mode is on when a `rawAudio` message was received. -/
def Honest (r : RawRun ρ) : Prop := r.streamer.rawAudioActive = r.received

/-- A `streamAudio` message leaves the mode and the rate alone. -/
def KeepsMode (speex : Speex ρ) (native : NativeRate) (libs : MessageLibs) (sid : List UInt8)
    (rawSampleRateVar : Option CString) (r : RawRun ρ) (a : RawAct) : Prop :=
  ∀ message located initOk, a = .text message located initOk →
    messageType libs message = some (ascii "streamAudio") →
      r.streamer.SameMode (r.step speex native libs sid rawSampleRateVar a).streamer

/-- Silent audio that is not what the mode and the rate are already, or the first `rawAudio`
message at a time when the session cannot be located. -/
def Misleads (libs : MessageLibs) (r : RawRun ρ) : RawAct → Prop
  | .text message true _ => ∃ rate, SilentAudio libs message rate ∧
      (r.streamer.rawAudioActive = false ∨ r.streamer.rawSampleRate ≠ rate)
  | .text message false _ => IsRawAudio libs message ∧ r.received = false
  | _ => False

theorem SilentAudio.rate_eq {message : CString} {rate rate' : Int}
    (h : SilentAudio libs message rate) (h' : SilentAudio libs message rate') : rate = rate' :=
  (@processMessage_silent libs [] message rate h).2.2.symm.trans
    (@processMessage_silent libs [] message rate' h').2.2

theorem honest_rawAudio_iff {r : RawRun ρ} {message : CString} (hraw : IsRawAudio libs message)
    (initOk : Bool) :
    ((r.step speex native libs sid rawSampleRateVar (.text message true initOk)).Honest ∧
      r.KeepsMode speex native libs sid rawSampleRateVar (.text message true initOk)) ↔
        ¬r.Misleads libs (.text message true initOk) := by
  have hcallback := @StreamerAudio.messageCallback_rawAudio _ speex native libs sid message
    r.streamer initOk hraw
  apply iff_of_true
  · constructor
    · simp [Honest, step, hcallback, hraw]
    · intro message' located' initOk' heq htype
      obtain ⟨rfl, -, -⟩ := RawAct.text.inj heq
      rw [IsRawAudio, htype] at hraw
      exact absurd hraw (by decide)
  · rintro ⟨rate, hsilent, -⟩
    exact hsilent.not_rawAudio hraw

theorem honest_silent_iff {r : RawRun ρ} (h : r.Honest) {message : CString} {rate : Int}
    (hsilent : SilentAudio libs message rate) (initOk : Bool) :
    ((r.step speex native libs sid rawSampleRateVar (.text message true initOk)).Honest ∧
      r.KeepsMode speex native libs sid rawSampleRateVar (.text message true initOk)) ↔
        ¬r.Misleads libs (.text message true initOk) := by
  unfold Honest at h
  have hcallback := @StreamerAudio.messageCallback_silentAudio _ speex native libs sid message
    r.streamer initOk rate hsilent
  constructor
  · rintro ⟨-, hkeeps⟩ ⟨rate', hsilent', hdiffers⟩
    obtain rfl := SilentAudio.rate_eq hsilent hsilent'
    have hsame := hkeeps message true initOk rfl hsilent.type
    simp only [StreamerAudio.SameMode, step, hcallback] at hsame
    rcases hdiffers with hoff | hne
    · rw [hoff] at hsame
      cases hsame.1
    · exact hne hsame.2.symm
  · intro hnot
    have hsame : r.streamer.rawAudioActive = true ∧ r.streamer.rawSampleRate = rate := by
      by_contra hne
      rw [not_and_or, Bool.not_eq_true] at hne
      exact hnot ⟨rate, hsilent, hne⟩
    refine ⟨?_, fun _ _ _ _ _ => ?_⟩
    · simp only [Honest, step, hcallback, decide_eq_false hsilent.not_rawAudio, Bool.or_false]
      rw [← h, hsame.1]
    · simp only [StreamerAudio.SameMode, step, hcallback]
      exact ⟨hsame.1.symm, hsame.2.symm⟩

theorem honest_text_iff {r : RawRun ρ} (h : r.Honest) (message : CString) (initOk : Bool) :
    ((r.step speex native libs sid rawSampleRateVar (.text message true initOk)).Honest ∧
      r.KeepsMode speex native libs sid rawSampleRateVar (.text message true initOk)) ↔
        ¬r.Misleads libs (.text message true initOk) := by
  by_cases hraw : IsRawAudio libs message
  · exact honest_rawAudio_iff hraw initOk
  · by_cases hsilent : ∃ rate, SilentAudio libs message rate
    · obtain ⟨rate, hrate⟩ := hsilent
      exact honest_silent_iff h hrate initOk
    · have hsame := @StreamerAudio.messageCallback_other _ speex native libs sid message r.streamer
        initOk hraw (not_exists.mp hsilent) true
      refine iff_of_true ⟨?_, fun _ _ _ _ _ => hsame⟩ fun hbad => hsilent ⟨_, hbad.choose_spec.1⟩
      simp only [Honest, step, decide_eq_false hraw, Bool.or_false]
      exact hsame.1.trans h

theorem honest_unlocated_iff {r : RawRun ρ} (h : r.Honest) (message : CString) (initOk : Bool) :
    ((r.step speex native libs sid rawSampleRateVar (.text message false initOk)).Honest ∧
      r.KeepsMode speex native libs sid rawSampleRateVar (.text message false initOk)) ↔
        ¬r.Misleads libs (.text message false initOk) := by
  unfold Honest at h
  have hkeeps : r.KeepsMode speex native libs sid rawSampleRateVar (.text message false initOk) :=
    fun _ _ _ _ _ => ⟨rfl, rfl⟩
  rw [and_iff_left hkeeps]
  simp only [Honest, Misleads, step, StreamerAudio.messageCallback_unlocated, h]
  by_cases hraw : IsRawAudio libs message
  · simp [hraw]
  · simp [hraw]

theorem honest_step_iff {r : RawRun ρ} (h : r.Honest) (a : RawAct) :
    ((r.step speex native libs sid rawSampleRateVar a).Honest ∧
      r.KeepsMode speex native libs sid rawSampleRateVar a) ↔ ¬r.Misleads libs a := by
  cases a with
  | text message located initOk =>
    cases located with
    | true => exact honest_text_iff h message initOk
    | false => exact honest_unlocated_iff h message initOk
  | binary data located initOk =>
    refine iff_of_true ⟨?_, fun _ _ _ heq => nomatch heq⟩ not_false
    exact (@StreamerAudio.binaryCallback_sameMode _ speex native r.streamer initOk located
      data).1.trans h
  | close => exact iff_of_true ⟨rfl, fun _ _ _ heq => nomatch heq⟩ not_false
  | initSampleRate =>
    refine iff_of_true ⟨?_, fun _ _ _ heq => nomatch heq⟩ not_false
    exact (StreamerAudio.initSampleRate_active r.streamer rawSampleRateVar).trans h

end RawRun

/-- In every run, raw mode follows the `rawAudio` messages and no `streamAudio` message touches it,
exactly when no message misleads. -/
theorem raw_mode_iff {ρ : Type*} (speex : Speex ρ) (native : NativeRate) (libs : MessageLibs)
    (sid : List UInt8) (rawSampleRateVar : Option CString) (playback : Option (Playback ρ))
    (acts : List RawAct) :
    (Always (RawStep speex native libs sid rawSampleRateVar) RawRun.Honest (.start playback) acts ∧
      Each (RawStep speex native libs sid rawSampleRateVar)
        (RawRun.KeepsMode speex native libs sid rawSampleRateVar) (.start playback) acts) ↔
      Never (RawStep speex native libs sid rawSampleRateVar) (RawRun.Misleads libs)
        (.start playback) acts := by
  have hstart : (RawRun.start playback).Honest := rfl
  rw [always_iff_each, and_iff_right hstart, each_and_iff]
  refine @each_iff_never _ _ _ RawRun.Honest _ _ ?_ ?_ _ _ hstart
  · rintro r a t h ha rfl
    exact ((RawRun.honest_step_iff h a).mpr ha).1
  · intro r a h
    rw [← RawRun.honest_step_iff h a]
    constructor
    · rintro ⟨hnext, hkeeps⟩
      exact ⟨hnext _ rfl, hkeeps⟩
    · rintro ⟨hnext, hkeeps⟩
      exact ⟨fun t ht => ht ▸ hnext, hkeeps⟩

/-- A `streamAudio` message without audio switches raw mode on. -/
theorem silent_audio_starts_raw_mode : ¬∀ (libs : MessageLibs) (message : CString),
    Always (RawStep copySpeex rate8000 libs (ascii "uuid") none) RawRun.Honest (.start none)
      [.text message true true] := by
  intro hall
  let data : CJson := .object [(ascii "audioDataType", .string (ascii "raw")),
    (ascii "sampleRate", .number 8000 (ascii "8000")), (ascii "audioData", .string [])]
  let root : CJson := .object [(ascii "type", .string (ascii "streamAudio")),
    (ascii "data", data)]
  let message : CString := ⟨ascii "\x7b\"type\":\"streamAudio\",\"data\":\x7b" ++
    ascii "\"audioDataType\":\"raw\",\"sampleRate\":8000,\"audioData\":\"\"\x7d\x7d",
    by decide⟩
  let body : CString :=
    ⟨ascii "\x7b\"audioDataType\":\"raw\",\"sampleRate\":8000\x7d", by decide⟩
  let libs : MessageLibs := .single message root body
  have hmessage : IsStreamAudio libs message data :=
    ⟨root, single_parse (by decide) root body, by decide, rfl⟩
  have hplayable : Playable libs data [] :=
    ⟨⟨[], rfl, rfl⟩, by decide, fun _ => by decide, rfl⟩
  have hsilent : SilentAudio libs message (rateOf data 0) :=
    .raw data [] hmessage hplayable rfl rfl
  have hhonest := hall libs message _ _ (List.prefix_refl _) (Run.cons rfl (Run.nil _))
  simp only [RawRun.Honest, RawRun.step, RawRun.start,
    StreamerAudio.messageCallback_silentAudio hsilent, decide_eq_false hsilent.not_rawAudio,
    Bool.or_false] at hhonest
  cases hhonest

end ModAudioStream
