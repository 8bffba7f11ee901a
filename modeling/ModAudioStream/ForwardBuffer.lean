import ModAudioStream.StartCommand
import ModAudioStream.FailedStart

namespace ModAudioStream

/-- An `int`, and nothing where the value overflows. -/
def intOf (n : Int) : Option Int := if -2 ^ 31 ≤ n ∧ n < 2 ^ 31 then some n else none

namespace InitConfig

/-- `FRAME_SIZE_8000 * desiredSampling / 8000 * channels * rtp_packets`, from left to right. -/
def buflenInt (cfg : InitConfig) : Option Int := do
  let scaled ← intOf (frameSize8000 * cfg.sampling)
  let samples ← intOf (scaled.tdiv 8000 * cfg.channels)
  intOf (samples * cfg.rtpPackets)

/-- The length of `cfg.rtpPackets` frames of 20 ms, over the integers. -/
def framesLength (cfg : InitConfig) : Int :=
  320 * (cfg.sampling / 8000) * cfg.channels * cfg.rtpPackets

/-- The rate is a positive multiple of 8000, and `buflen` is exact and holds a frame. -/
structure ExactBuffer (cfg : InitConfig) : Prop where
  positive : 0 < cfg.sampling
  multiple : 8000 ∣ cfg.sampling
  computed : cfg.buflenInt = some cfg.framesLength
  buflen : (cfg.buflen : Int) = cfg.framesLength
  frame : 320 * (cfg.sampling / 8000) * cfg.channels ≤ (cfg.buflen : Int)

end InitConfig

/-- The rate is positive, and neither 320 times the rate nor the length of the frames is too large
for an `int`. -/
structure FitsInt (sampling : Int) (channels : Nat) (rtpPackets : Int) : Prop where
  positive : 0 < sampling
  scaled : 320 * sampling < 2 ^ 31
  length : 320 * (sampling / 8000) * channels * rtpPackets < 2 ^ 31

theorem intOf_eq_some {n m : Int} : intOf n = some m ↔ n = m ∧ -2 ^ 31 ≤ n ∧ n < 2 ^ 31 := by
  unfold intOf
  split
  next h =>
    rw [Option.some.injEq]
    exact (and_iff_left h).symm
  next h => exact iff_of_false nofun fun hm => h hm.2

theorem int32_of_intOf {n m : Int} (h : intOf n = some m) : int32 n = m := by
  obtain ⟨rfl, hlo, hhi⟩ := intOf_eq_some.mp h
  exact int32_eq (by omega) (by omega)

namespace InitConfig

variable {cfg : InitConfig}

theorem rtpPackets_pos (cfg : InitConfig) : 1 ≤ cfg.rtpPackets := by
  unfold rtpPackets
  split
  next size _ =>
    split
    next => exact Int.le_refl 1
    next =>
      split
      next hge =>
        rw [Int.tdiv_eq_ediv_of_nonneg (by omega)]
        omega
      next => exact Int.le_refl 1
  next => exact Int.le_refl 1

/-- Without an overflow, `buflen` is what is computed. -/
theorem buflen_of_buflenInt {n : Int} (h : cfg.buflenInt = some n) (hn : 0 ≤ n) :
    (cfg.buflen : Int) = n := by
  obtain ⟨scaled, hscaled, h⟩ := Option.bind_eq_some_iff.mp h
  obtain ⟨samples, hsamples, h⟩ := Option.bind_eq_some_iff.mp h
  have hframes : int32 (scaled.tdiv 8000) = scaled.tdiv 8000 := by
    obtain ⟨rfl, hlo, hhi⟩ := intOf_eq_some.mp hscaled
    have habs : (Int.tdiv (frameSize8000 * cfg.sampling) 8000).natAbs =
        (frameSize8000 * cfg.sampling : Int).natAbs / 8000 := Int.natAbs_tdiv _ 8000
    exact int32_eq (by omega) (by omega)
  have hhi := (intOf_eq_some.mp h).2.2
  have hlen := (intOf_eq_some.mp h).1
  unfold buflen
  rw [int32_of_intOf hscaled]
  dsimp only
  rw [hframes, int32_of_intOf hsamples, int32_of_intOf h, Int.emod_eq_of_lt hn (by omega),
    Int.toNat_of_nonneg hn]

theorem framesLength_of_mul {k : Int} (hk : cfg.sampling = 8000 * k) :
    cfg.framesLength = 320 * k * cfg.channels * cfg.rtpPackets := by
  rw [framesLength, hk, Int.mul_ediv_cancel_left k (by omega)]

/-- The three products, for a rate of `k` times 8000. -/
theorem buflenInt_of_mul {k : Int} (hk : cfg.sampling = 8000 * k) (n : Int) :
    cfg.buflenInt = some n ↔
      (-2 ^ 31 ≤ 320 * cfg.sampling ∧ 320 * cfg.sampling < 2 ^ 31) ∧
      (-2 ^ 31 ≤ 320 * k * cfg.channels ∧ 320 * k * cfg.channels < 2 ^ 31) ∧
      cfg.framesLength = n ∧ -2 ^ 31 ≤ cfg.framesLength ∧ cfg.framesLength < 2 ^ 31 := by
  have hscaled : (frameSize8000 * cfg.sampling : Int).tdiv 8000 = 320 * k := by
    rw [hk, show (frameSize8000 * (8000 * k) : Int) = 8000 * (320 * k) by
      rw [show (frameSize8000 : Int) = 320 from rfl]; omega]
    exact Int.mul_tdiv_cancel_left _ (by omega)
  rw [framesLength_of_mul hk]
  unfold buflenInt
  simp only [Option.bind_eq_bind, Option.bind_eq_some_iff, intOf_eq_some]
  constructor
  · rintro ⟨_, ⟨rfl, hs⟩, _, ⟨rfl, hc⟩, h⟩
    rw [hscaled] at hc h
    exact ⟨hs, hc, h⟩
  · rintro ⟨hs, hc, h⟩
    refine ⟨_, ⟨rfl, hs⟩, _, ⟨rfl, ?_⟩, ?_⟩
    · rw [hscaled]
      exact hc
    · rw [hscaled]
      exact h

/-- For a multiple of 8000 and one or two channels. -/
theorem exactBuffer_iff (hmod : cfg.sampling.tmod 8000 = 0)
    (hchannels : cfg.channels = 1 ∨ cfg.channels = 2) :
    cfg.ExactBuffer ↔ FitsInt cfg.sampling cfg.channels cfg.rtpPackets := by
  obtain ⟨k, hk⟩ := Int.dvd_of_tmod_eq_zero hmod
  constructor
  · intro h
    obtain ⟨hscaled, -, -, -, hlength⟩ := (buflenInt_of_mul hk _).mp h.computed
    exact ⟨h.positive, hscaled.2, hlength⟩
  · intro h
    have hpos := h.positive
    have hscaled := h.scaled
    have hkpos : 0 < k := by omega
    have hsamples : 0 ≤ 320 * k * cfg.channels ∧ 320 * k * cfg.channels < 2 ^ 31 := by
      rcases hchannels with hc | hc
      · rw [hc]
        omega
      · rw [hc]
        omega
    have hframe : 320 * k * cfg.channels ≤ cfg.framesLength := by
      rw [framesLength_of_mul hk]
      have hle := Int.mul_le_mul_of_nonneg_left cfg.rtpPackets_pos hsamples.1
      rwa [Int.mul_one] at hle
    have hcomputed : cfg.buflenInt = some cfg.framesLength := by
      rw [buflenInt_of_mul hk]
      exact ⟨⟨by omega, hscaled⟩, ⟨by omega, hsamples.2⟩, rfl, by omega, h.length⟩
    have hbuflen := buflen_of_buflenInt hcomputed (by omega)
    refine ⟨hpos, ⟨k, hk⟩, hcomputed, hbuflen, ?_⟩
    rw [hbuflen, hk, Int.mul_ediv_cancel_left k (by omega)]
    exact hframe

end InitConfig

/-- What `stream_session_init` is given for a request, with the variables of the channel. -/
def StartRequest.config (request : StartRequest) (samplesPerSecond : Nat)
    (bufferSize sampleRate : Option (List UInt8)) (playback : Bool) : InitConfig :=
  ⟨samplesPerSecond, request.sampling, request.channels, bufferSize, sampleRate, playback⟩

/-- For a start command that gets as far as `start_capture`, the buffer is exact if and only if the
rate of its argument is positive and the products fit. -/
theorem forward_buffer_iff (calls : CommandCalls) (cmd : CString) (request : StartRequest)
    (h : request ∈ (streamFunction calls cmd).effects.filterMap CommandEffect.request)
    (samplesPerSecond : Nat) (bufferSize sampleRate : Option (List UInt8)) (playback : Bool) :
    (request.config samplesPerSecond bufferSize sampleRate playback).ExactBuffer ↔
      FitsInt (samplingOf (argvOf calls cmd)[4]?) request.channels
        (request.config samplesPerSecond bufferSize sampleRate playback).rtpPackets := by
  have hstarted := (request_iff calls cmd request).mp h
  have hchannels : request.channels = 1 ∨ request.channels = 2 := by
    unfold StartRequest.channels
    split
    · exact Or.inr rfl
    · exact Or.inl rfl
  rw [← hstarted.sampling]
  exact InitConfig.exactBuffer_iff hstarted.rate hchannels

/-- Five packets at 16 kHz. -/
theorem five_packets_buffer : ∃ (calls : CommandCalls) (cmd : CString) (request : StartRequest),
    request ∈ (streamFunction calls cmd).effects.filterMap CommandEffect.request ∧
      (request.config 8000 (some (ascii "100")) none false).ExactBuffer ∧
      (request.config 8000 (some (ascii "100")) none false).buflen = 3200 := by
  let url : CString := ⟨ascii "ws://host", by decide⟩
  let rest : List CString := [⟨ascii "16k", by decide⟩]
  let cmd : CString := ⟨ascii "uuid start ws://host mono 16k", by decide⟩
  have h := @monoStart_request cmd url rest _ (by decide)
    (validateWsUri_host (List.append_nil _).symm nofun) (by decide) nofun
  refine ⟨_, cmd, _, h, ?_, by decide⟩
  rw [forward_buffer_iff _ cmd _ h]
  exact ⟨by decide, by decide, by decide⟩

/-- `abc` is the rate 0, which is a multiple of 8000. -/
theorem rate_zero_accepted : ¬∀ (calls : CommandCalls) (cmd : CString) (request : StartRequest),
    request ∈ (streamFunction calls cmd).effects.filterMap CommandEffect.request →
    ∀ (samplesPerSecond : Nat) (bufferSize sampleRate : Option (List UInt8)) (playback : Bool),
      (request.config samplesPerSecond bufferSize sampleRate playback).ExactBuffer := by
  intro hall
  let url : CString := ⟨ascii "ws://host", by decide⟩
  let rest : List CString := [⟨ascii "abc", by decide⟩]
  let cmd : CString := ⟨ascii "uuid start ws://host mono abc", by decide⟩
  have h := @monoStart_request cmd url rest _ (by decide)
    (validateWsUri_host (List.append_nil _).symm nofun) (by decide) nofun
  have hbuffer := hall _ cmd _ h 8000 none none false
  exact absurd hbuffer.positive (by decide)

end ModAudioStream
