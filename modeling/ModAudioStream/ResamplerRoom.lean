import ModAudioStream.RawMode

namespace ModAudioStream

/-- The room for the output is what the block needs, without wrap. -/
def RoomExact (native : NativeRate) (srcLen : Nat) (rate : Int) : Prop :=
  Playback.outLen native srcLen rate = srcLen / 2 * native.value / rate.toNat + 32

/-- The samples of the block and the room that they need can be written in 32 bits. -/
def FitsWord (native : NativeRate) (srcLen : Nat) (rate : Int) : Prop :=
  srcLen / 2 < 2 ^ 32 ∧ srcLen / 2 * native.value < (2 ^ 32 - 32) * rate.toNat

theorem NativeRate.value_pos (native : NativeRate) : 0 < native.value := by
  by_contra hzero
  have hpos := native.frame_pos
  rw [Nat.eq_zero_of_not_pos hzero] at hpos
  exact absurd hpos (by decide)

/-- Dropping `2 ^ 32` samples or more makes the quotient smaller, since the rate is no more than
`2 ^ 32`. -/
theorem quotient_drops {samples value rate : Nat} (hvalue : 0 < value) (hrate : 0 < rate)
    (hint : rate < 2 ^ 31) (hlarge : 2 ^ 32 ≤ samples) :
    samples % 2 ^ 32 * value / rate < samples * value / rate := by
  have hsplit : samples % 2 ^ 32 + 2 ^ 32 ≤ samples := by omega
  have hle : (samples % 2 ^ 32) * value + rate ≤ samples * value := calc
    (samples % 2 ^ 32) * value + rate ≤ (samples % 2 ^ 32) * value + 2 ^ 32 * value := by
      have hmul : 2 ^ 32 ≤ 2 ^ 32 * value := Nat.le_mul_of_pos_right _ hvalue
      omega
    _ = (samples % 2 ^ 32 + 2 ^ 32) * value := (Nat.add_mul _ _ _).symm
    _ ≤ samples * value := Nat.mul_le_mul_right value hsplit
  have hdiv := Nat.div_le_div_right (c := rate) hle
  rw [Nat.add_div_right _ hrate] at hdiv
  omega

/-- The room is exact for the blocks that fit, and for no others. -/
theorem resampler_room_iff (native : NativeRate) (srcLen : Nat) {rate : Int} (hpos : 0 < rate)
    (hint : rate < 2 ^ 31) : RoomExact native srcLen rate ↔ FitsWord native srcLen rate := by
  have hrate : 0 < rate.toNat := by omega
  have hsmall : rate.toNat < 2 ^ 31 := by omega
  have hroom : srcLen / 2 * native.value / rate.toNat + 32 < 2 ^ 32 ↔
      srcLen / 2 * native.value < (2 ^ 32 - 32) * rate.toNat := by
    rw [← Nat.div_lt_iff_lt_mul hrate]
    omega
  unfold RoomExact FitsWord Playback.outLen uint32
  rw [← hroom]
  constructor
  · intro hexact
    have hlt := Nat.mod_lt (srcLen / 2 % 2 ^ 32 * native.value / rate.toNat + 32)
      (by decide : 0 < 2 ^ 32)
    refine ⟨?_, by omega⟩
    by_contra hlarge
    have hdrops := quotient_drops native.value_pos hrate hsmall (Nat.le_of_not_lt hlarge)
    have hle := Nat.mod_le (srcLen / 2 % 2 ^ 32 * native.value / rate.toNat + 32) (2 ^ 32)
    omega
  · rintro ⟨hsamples, hfits⟩
    rw [Nat.mod_eq_of_lt hsamples, Nat.mod_eq_of_lt hfits]

/-- A frame of 20 ms at 16000 for a channel at 8000. -/
theorem frame_room_exact : RoomExact ⟨8000, by decide, by decide⟩ 640 16000 :=
  (resampler_room_iff _ 640 (by decide) (by decide)).mpr ⟨by decide, by decide⟩

/-- A `rawAudio` message with rate 1, and a binary frame of 178958 bytes for a channel at 48000:
the room is for 24736 samples of more than four billions. -/
theorem raw_rate_wraps_room : ¬∀ (native : NativeRate) (libs : MessageLibs) (message : CString)
    (data : List UInt8),
    let r : StreamerAudio Unit := (StreamerAudio.messageCallback copySpeex native libs
      (ascii "uuid") ⟨false, 8000, none⟩ true true message).1
    r.rawAudioActive = true → 0 < r.rawSampleRate → r.rawSampleRate ≠ native.value →
      RoomExact native data.length r.rawSampleRate := by
  intro hall
  let native : NativeRate := ⟨48000, by decide, by decide⟩
  let root : CJson := .object [(ascii "type", .string (ascii "rawAudio")),
    (ascii "data", .object [(ascii "sampleRate", .number 1 (ascii "1"))])]
  let message : CString := ⟨ascii "\x7b\"type\":\"rawAudio\",\"data\":" ++
    ascii "\x7b\"sampleRate\":1\x7d\x7d", by decide⟩
  let libs : MessageLibs := .single message root ⟨[], by decide⟩
  have hparse : libs.parse message.bytes = some root := single_parse (by decide) root _
  have hraw : IsRawAudio libs message := by
    rw [IsRawAudio, messageType, hparse]
    decide
  have hgiven : givenRate libs message = some 1 := by
    rw [givenRate, hparse]
    decide
  have hexact := hall native libs message (List.replicate 178958 0)
  simp only [StreamerAudio.messageCallback_rawAudio hraw, hgiven, Option.getD_some,
    List.length_replicate] at hexact
  have hroom : Playback.outLen native 178958 1 = 178958 / 2 * 48000 / 1 + 32 :=
    hexact trivial (by decide) (by decide)
  exact absurd hroom (by decide)

end ModAudioStream
