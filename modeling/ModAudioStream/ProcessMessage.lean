import ModAudioStream.CJson

namespace ModAudioStream

/-- What `base64_decode` throws: its own error, or that of `std::string::at`. -/
inductive DecodeError where
  | invalid
  | outOfRange (n size : Nat)
deriving DecidableEq, Repr

def DecodeError.what : DecodeError → List UInt8
  | .invalid => ascii "Input is not valid base64-encoded data."
  | .outOfRange n size => ascii "basic_string::at: __n (which is " ++ ascii (toString n) ++
      ascii ") >= this->size() (which is " ++ ascii (toString size) ++ ascii ")"

def posOfChar (chr : UInt8) : Except DecodeError Nat :=
  if 0x41 ≤ chr ∧ chr ≤ 0x5A then .ok (chr.toNat - 0x41)
  else if 0x61 ≤ chr ∧ chr ≤ 0x7A then .ok (chr.toNat - 0x61 + 26)
  else if 0x30 ≤ chr ∧ chr ≤ 0x39 then .ok (chr.toNat - 0x30 + 52)
  else if chr = 0x2B ∨ chr = 0x2D then .ok 62
  else if chr = 0x2F ∨ chr = 0x5F then .ok 63
  else .error .invalid

/-- `=`, or `.` in the URL alphabet. -/
def isPadding (c : UInt8) : Bool := c == 0x3D || c == 0x2E

/-- One round of the loop: the bytes of a chunk, which lacks characters at the end of the
text or is padded. -/
def decodeChunk (c₀ c₁ : UInt8) (c₂ c₃ : Option UInt8) : Except DecodeError (List UInt8) := do
  let p₁ ← posOfChar c₁
  let p₀ ← posOfChar c₀
  let first := UInt8.ofNat (p₀ * 4 + p₁ / 16)
  match c₂.filter (!isPadding ·) with
  | none => return [first]
  | some c₂ =>
    let p₂ ← posOfChar c₂
    let second := UInt8.ofNat (p₁ % 16 * 16 + p₂ / 4)
    match c₃.filter (!isPadding ·) with
    | none => return [first, second]
    | some c₃ =>
      let p₃ ← posOfChar c₃
      return [first, second, UInt8.ofNat (p₂ % 4 * 64 + p₃)]

/-- The loop of `base64_decode`, from `pos` on. -/
def decodeLoop (size : Nat) : Nat → List UInt8 → Except DecodeError (List UInt8)
  | _, [] => .ok []
  | pos, [_] => .error (.outOfRange (pos + 1) size)
  | _, [c₀, c₁] => decodeChunk c₀ c₁ none none
  | _, [c₀, c₁, c₂] => decodeChunk c₀ c₁ (some c₂) none
  | pos, c₀ :: c₁ :: c₂ :: c₃ :: rest => do
    let chunk ← decodeChunk c₀ c₁ (some c₂) (some c₃)
    let ret ← decodeLoop size (pos + 4) rest
    return chunk ++ ret

def base64Decode (s : List UInt8) : Except DecodeError (List UInt8) := decodeLoop s.length 0 s

/-- What a computation that does not throw has computed first. -/
theorem ok_of_bind_ok {ε α β : Type} {x : Except ε α} {f : α → Except ε β} {b : β}
    (h : x >>= f = .ok b) : ∃ a, x = .ok a ∧ f a = .ok b := by
  cases x with
  | error e => cases h
  | ok a => exact ⟨a, rfl, h⟩

theorem decodeChunk_ne_nil {c₀ c₁ : UInt8} {c₂ c₃ : Option UInt8} {chunk : List UInt8}
    (h : decodeChunk c₀ c₁ c₂ c₃ = .ok chunk) : chunk ≠ [] := by
  rintro rfl
  obtain ⟨p₁, -, h⟩ := ok_of_bind_ok h
  obtain ⟨p₀, -, h⟩ := ok_of_bind_ok h
  dsimp only at h
  split at h
  next => cases h
  next =>
    obtain ⟨p₂, -, h⟩ := ok_of_bind_ok h
    split at h
    next => cases h
    next =>
      obtain ⟨p₃, -, h⟩ := ok_of_bind_ok h
      cases h

theorem decodeLoop_ne_nil {size pos : Nat} {s : List UInt8} (hs : s ≠ []) :
    decodeLoop size pos s ≠ .ok [] := by
  intro h
  match s with
  | [] => exact hs rfl
  | [_] => cases h
  | [_, _] => exact decodeChunk_ne_nil h rfl
  | [_, _, _] => exact decodeChunk_ne_nil h rfl
  | c₀ :: c₁ :: c₂ :: c₃ :: rest =>
    obtain ⟨chunk, hchunk, h⟩ := ok_of_bind_ok h
    obtain ⟨ret, -, h⟩ := ok_of_bind_ok h
    have happend : chunk ++ ret = [] := Except.ok.inj h
    exact decodeChunk_ne_nil hchunk (List.append_eq_nil_iff.mp happend).1

/-- Only the empty text decodes to nothing. -/
theorem base64Decode_eq_nil {s : List UInt8} (h : base64Decode s = .ok []) : s = [] := by
  by_contra hs
  exact decodeLoop_ne_nil hs h

/-- What is called for a message: `cJSON_Parse`, for which the empty text is no JSON,
`cJSON_PrintUnformatted`, and the samples that Opus decodes, none when it fails. -/
structure MessageLibs where
  parse : List UInt8 → Option CJson
  parse_nil : parse [] = none
  print : CJson → Option CString
  opusDecode : List UInt8 → List UInt8

structure ProcessResult where
  ok : Bool := false
  rewrittenJsonData : CString := ⟨[], by decide⟩
  decodedAudio : List UInt8 := []
  sampleRate : Int := 8000
  audioDataType : List UInt8 := []
  errors : List (List UInt8) := []

def ProcessResult.initial : ProcessResult := {}

def ProcessResult.pushErr (out : ProcessResult) (sid s : List UInt8) : ProcessResult :=
  { out with errors := out.errors ++ [ascii "(" ++ sid ++ ascii ") " ++ s] }

def supportedTypes : List (List UInt8) :=
  [ascii "raw", ascii "pcmu", ascii "pcma", ascii "wav", ascii "mp3", ascii "ogg", ascii "opus"]

def isRawRate (sampleRate : Int) : Bool :=
  sampleRate.tmod 8000 == 0 && 8000 ≤ sampleRate && sampleRate ≤ 64000

/-- `audioDataType`, or the empty string. -/
def audioType (jsonData : CJson) : List UInt8 :=
  (jsonData.getObjectCstr (ascii "audioDataType")).getD []

def rateOf (jsonData : CJson) (default : Int) : Int :=
  ((jsonData.getObjectItem (ascii "sampleRate")).map CJson.valueint).getD default

/-- The result for a `rawAudio` message. -/
def processRawAudio (root : CJson) : ProcessResult :=
  { ok := true
    audioDataType := ascii "raw"
    sampleRate := ((root.getObjectItem (ascii "data")).map (rateOf · 8000)).getD 8000 }

section

variable (libs : MessageLibs) (sid : List UInt8)

/-- The part of `processMessage` that makes samples of the decoded text. -/
def ProcessResult.setAudio (out : ProcessResult) (type : List UInt8) (sampleRate : Int)
    (decoded : List UInt8) : ProcessResult :=
  if type = ascii "raw" ∨ type = ascii "pcmu" ∨ type = ascii "pcma" then
    { out with
      decodedAudio := decoded
      sampleRate := if type = ascii "raw" then sampleRate else 8000
      audioDataType := type }
  else if type = ascii "opus" then
    { out with
      decodedAudio := libs.opusDecode decoded, sampleRate := 48000, audioDataType := ascii "raw" }
  else out

/-- The result for a `streamAudio` message. -/
def processStreamAudio (root : CJson) : ProcessResult :=
  let out : ProcessResult := {}
  match root.getObjectItem (ascii "data") with
  | none => out.pushErr sid (ascii "processMessage - no data in streamAudio")
  | some jsonData =>
    let type := audioType jsonData
    match jsonData.getObjectItem (ascii "audioData") with
    | none => out.pushErr sid (ascii "processMessage - streamAudio missing 'audioData' field")
    | some jsonAudio =>
      let jsonData := jsonData.detachItem (ascii "audioData")
      match jsonAudio.asString with
      | none => out.pushErr sid
          (ascii "processMessage - 'audioData' is not a string (expected base64 string)")
      | some text =>
        let sampleRate := rateOf jsonData 0
        if type ∉ supportedTypes then
          out.pushErr sid (ascii "processMessage - unsupported audio type: " ++ type)
        else if type = ascii "raw" ∧ isRawRate sampleRate = false then
          out.pushErr sid
            (ascii "processMessage - unsupported sample rate: " ++ ascii (toString sampleRate))
        else
          match base64Decode text with
          | .error e => out.pushErr sid (ascii "processMessage - base64 decode error: " ++ e.what)
          | .ok decoded =>
            let out := out.setAudio libs type sampleRate decoded
            match libs.print jsonData with
            | none => out.pushErr sid (ascii "processMessage - cJSON_PrintUnformatted failed")
            | some jsonString => { out with rewrittenJsonData := jsonString, ok := true }

def processMessage (message : CString) : ProcessResult :=
  match libs.parse message.bytes with
  | none => {}
  | some root =>
    match root.getObjectCstr (ascii "type") with
    | none => {}
    | some jsonType =>
      if jsonType = ascii "rawAudio" then processRawAudio root
      else if jsonType ≠ ascii "streamAudio" then {}
      else processStreamAudio libs sid root

/-- `processMessage` for a `streamAudio` message, with what leaves it as an exception: a handler
stands around `base64_decode` alone. -/
def tryStreamAudio (root : CJson) : Except DecodeError ProcessResult := do
  let out := ProcessResult.initial
  match root.getObjectItem (ascii "data") with
  | none => return out.pushErr sid (ascii "processMessage - no data in streamAudio")
  | some jsonData =>
    let type := audioType jsonData
    match jsonData.getObjectItem (ascii "audioData") with
    | none =>
      return out.pushErr sid (ascii "processMessage - streamAudio missing 'audioData' field")
    | some jsonAudio =>
      let jsonData := jsonData.detachItem (ascii "audioData")
      match jsonAudio.asString with
      | none =>
        return out.pushErr sid
          (ascii "processMessage - 'audioData' is not a string (expected base64 string)")
      | some text =>
        let sampleRate := rateOf jsonData 0
        if type ∉ supportedTypes then
          return out.pushErr sid (ascii "processMessage - unsupported audio type: " ++ type)
        else if type = ascii "raw" ∧ isRawRate sampleRate = false then
          return out.pushErr sid
            (ascii "processMessage - unsupported sample rate: " ++ ascii (toString sampleRate))
        else
          let decoded ← tryCatch (Except.ok <$> base64Decode text) fun e =>
            pure (Except.error e.what)
          match decoded with
          | .error what =>
            return out.pushErr sid (ascii "processMessage - base64 decode error: " ++ what)
          | .ok decoded =>
            let out := out.setAudio libs type sampleRate decoded
            match libs.print jsonData with
            | none =>
              return out.pushErr sid (ascii "processMessage - cJSON_PrintUnformatted failed")
            | some jsonString => return { out with rewrittenJsonData := jsonString, ok := true }

def tryProcessMessage (message : CString) : Except DecodeError ProcessResult :=
  match libs.parse message.bytes with
  | none => return .initial
  | some root =>
    match root.getObjectCstr (ascii "type") with
    | none => return .initial
    | some jsonType =>
      if jsonType = ascii "rawAudio" then return processRawAudio root
      else if jsonType ≠ ascii "streamAudio" then return .initial
      else tryStreamAudio libs sid root

end

/-- `EVENT_JSON` and `EVENT_PLAY`. -/
inductive MessageEvent where
  | json
  | play
deriving DecidableEq, Repr

/-- `m_rawAudioActive` and `m_rawSampleRate`, and the playback fields of `private_t`, when
the session has the media bug. -/
structure StreamerAudio (ρ : Type*) where
  rawAudioActive : Bool
  rawSampleRate : Int
  playback : Option (Playback ρ)

/-- `eventCallback` for `MESSAGE`, with the events that are fired and their bodies. -/
def StreamerAudio.messageCallback {ρ : Type*} (speex : Speex ρ) (native : NativeRate)
    (libs : MessageLibs) (sid : List UInt8) (r : StreamerAudio ρ) (located initOk : Bool)
    (message : CString) : StreamerAudio ρ × List (MessageEvent × CString) :=
  let pr := processMessage libs sid message
  let msg := if pr.ok then pr.rewrittenJsonData else message
  if !located then (r, [])
  else if pr.ok then
    if pr.audioDataType = ascii "raw" ∧ pr.decodedAudio = [] then
      ({ r with rawAudioActive := true, rawSampleRate := pr.sampleRate }, [(.json, msg)])
    else if pr.decodedAudio ≠ [] then
      let playback := r.playback.map fun p =>
        (p.eventCallback speex native pr.sampleRate pr.decodedAudio initOk).1
      ({ r with playback := playback }, [(.play, msg)])
    else (r, [(.play, msg)])
  else (r, [(.json, msg)])

end ModAudioStream
