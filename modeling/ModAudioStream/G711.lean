import ModAudioStream.JsonAudio

namespace ModAudioStream

/-- The two laws of G.711. -/
inductive G711 where
  | pcmu
  | pcma
deriving DecidableEq, Repr

namespace G711

def audioDataType : G711 → List UInt8
  | .pcmu => ascii "pcmu"
  | .pcma => ascii "pcma"

/-- The 16-bit sample that a code stands for: of its bits, inverted as the law has it, one is the
sign, three the segment and four the step. -/
def expand (law : G711) (code : UInt8) : Int :=
  match law with
  | .pcmu =>
    let u := (~~~code).toNat
    let magnitude : Int := (u % 16 * 8 + 132) * 2 ^ (u / 16 % 8) - 132
    if 128 ≤ u then -magnitude else magnitude
  | .pcma =>
    let a := (code ^^^ 0x55).toNat
    let magnitude : Int :=
      if a / 16 % 8 = 0 then a % 16 * 16 + 8 else (a % 16 * 16 + 264) * 2 ^ (a / 16 % 8 - 1)
    if 128 ≤ a then magnitude else -magnitude

/-- A sample in memory: two bytes, the lower one first. -/
def sample (n : Int) : Sample :=
  (UInt8.ofNat (n % 256).toNat, UInt8.ofNat (n / 256 % 256).toNat)

def expanded (law : G711) (payload : List UInt8) : List UInt8 :=
  sampleBytes (payload.map fun code => sample (law.expand code))

theorem expand_fits (law : G711) (code : UInt8) :
    -32768 ≤ law.expand code ∧ law.expand code < 32768 := by
  cases law with
  | pcmu =>
    exact @uint8_all (fun code => -32768 ≤ expand .pcmu code ∧ expand .pcmu code < 32768)
      (by decide +kernel) code
  | pcma =>
    exact @uint8_all (fun code => -32768 ≤ expand .pcma code ∧ expand .pcma code < 32768)
      (by decide +kernel) code

theorem expanded_length (law : G711) (payload : List UInt8) :
    (law.expanded payload).length = 2 * payload.length := by
  induction payload with
  | nil => rfl
  | cons code payload ih =>
    have hcons : law.expanded (code :: payload) =
        (sample (law.expand code)).1 :: (sample (law.expand code)).2 :: law.expanded payload := rfl
    rw [hcons, List.length_cons, List.length_cons, ih, List.length_cons]
    omega

theorem expanded_eq_self {law : G711} {payload : List UInt8} (h : law.expanded payload = payload) :
    payload = [] := by
  have hlen := congrArg List.length h
  rw [expanded_length] at hlen
  exact List.eq_nil_of_length_eq_zero (by omega)

/-- Silence, and the largest samples of both laws. -/
example : expand .pcmu 0xFF = 0 ∧ expand .pcmu 0x80 = 32124 ∧ expand .pcma 0xD5 = 8 ∧
    expand .pcma 0xAA = 32256 := by decide

end G711

section

variable {libs : MessageLibs} {data : CJson} {decoded : List UInt8}

/-- The audio of an accepted message of a law is its payload, code for code. -/
theorem playResult_g711 {law : G711} (htype : audioType data = law.audioDataType) (body : CString) :
    (playResult libs data decoded body).decodedAudio = decoded := by
  have hsamples : audioType data = ascii "raw" ∨ audioType data = ascii "pcmu" ∨
      audioType data = ascii "pcma" := by
    cases law with
    | pcmu => exact Or.inr (Or.inl htype)
    | pcma => exact Or.inr (Or.inr htype)
  rw [playResult, ProcessResult.setAudio, if_pos hsamples]

end

/-- The audio of every accepted message of a law is the expansion of its payload. -/
def DecodedToPcm (libs : MessageLibs) (sid : List UInt8) (message : CString) : Prop :=
  ∀ (law : G711) data text payload, IsStreamAudio libs message data →
    audioType data = law.audioDataType →
    data.getObjectCstr (ascii "audioData") = some text → base64Decode text = .ok payload →
    (processMessage libs sid message).ok = true →
      (processMessage libs sid message).decodedAudio = law.expanded payload

/-- The message brings codes of neither law. -/
def NoCodes (libs : MessageLibs) (message : CString) : Prop :=
  ∀ (law : G711) data payload, IsStreamAudio libs message data →
    audioType data = law.audioDataType → Playable libs data payload →
      data.getObjectCstr (ascii "audioData") = some []

/-- The codes are never expanded: the audio is right only where there are none. -/
theorem g711_decoded_iff (libs : MessageLibs) (sid : List UInt8) (message : CString) :
    DecodedToPcm libs sid message ↔ NoCodes libs message := by
  constructor
  · intro hpcm law data payload hmessage htype h
    obtain ⟨body, hbody⟩ := Option.isSome_iff_exists.mp h.printed
    obtain ⟨text, htext, hdecode⟩ := h.audio
    have hpr := processMessage_playable sid hmessage h hbody
    have hok : (processMessage libs sid message).ok = true := by rw [hpr]; rfl
    have haudio := hpcm law data text payload hmessage htype htext hdecode hok
    rw [hpr, playResult_g711 htype] at haudio
    exact h.decoded_eq_nil_iff.mp (G711.expanded_eq_self haudio.symm)
  · intro hnone law data text payload hmessage htype htext hdecode hok
    obtain ⟨decoded, h⟩ := playable_of_ok hmessage hok
    obtain ⟨body, hbody⟩ := Option.isSome_iff_exists.mp h.printed
    have hempty := hnone law data decoded hmessage htype h
    obtain rfl := Option.some.inj (htext.symm.trans hempty)
    obtain rfl : [] = payload := Except.ok.inj hdecode
    rw [processMessage_playable sid hmessage h hbody, playResult_g711 htype]
    exact h.decoded_eq_nil_iff.mpr hempty

/-- One code of silence: its byte is taken for audio, where the sample has two bytes. -/
theorem pcmu_code_not_expanded : ¬∀ (libs : MessageLibs) (message : CString),
    DecodedToPcm libs (ascii "uuid") message := by
  intro hall
  let data : CJson := .object [(ascii "audioDataType", .string (ascii "pcmu")),
    (ascii "audioData", .string (ascii "/w=="))]
  let root : CJson := .object [(ascii "type", .string (ascii "streamAudio")),
    (ascii "data", data)]
  let message : CString := ⟨ascii "\x7b\"type\":\"streamAudio\",\"data\":\x7b" ++
    ascii "\"audioDataType\":\"pcmu\",\"audioData\":\"/w==\"\x7d\x7d", by decide⟩
  let body : CString := ⟨ascii "\x7b\"audioDataType\":\"pcmu\"\x7d", by decide⟩
  let libs : MessageLibs := .single message root body
  have hmessage : IsStreamAudio libs message data :=
    ⟨root, single_parse (by decide) root body, by decide, rfl⟩
  have hdecode : base64Decode (ascii "/w==") = .ok [0xFF] := by decide
  have hplayable : Playable libs data [0xFF] :=
    ⟨⟨ascii "/w==", rfl, hdecode⟩, by decide, fun hraw => absurd hraw (by decide), rfl⟩
  have hpr := processMessage_playable (ascii "uuid") hmessage hplayable rfl
  have haudio := hall libs message .pcmu data (ascii "/w==") [0xFF] hmessage rfl rfl hdecode
    (by rw [hpr]; rfl)
  have htype : audioType data = G711.audioDataType .pcmu := rfl
  rw [hpr, playResult_g711 htype] at haudio
  exact absurd haudio (by decide)

end ModAudioStream
