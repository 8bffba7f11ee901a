import ModAudioStream.CStrings
import ModAudioStream.StreamFrame

namespace ModAudioStream

/-- What a start hands to `stream_session_init`, as far as its calls depend on it:
`bufferSize` and `sampleRate` are `STREAM_BUFFER_SIZE` and `STREAM_SAMPLE_RATE`, `playback`
is `STREAM_PLAYBACK`. -/
structure InitConfig where
  samplesPerSecond : Nat
  sampling : Int
  channels : Nat
  bufferSize : Option (List UInt8)
  sampleRate : Option (List UInt8)
  playback : Bool

/-- What the calls of `stream_session_init` and `stream_data_init` return. Speex returns a
state or none, and an error code. -/
structure InitCalls where
  sessionAlloc : Bool
  createSbuffer : Nat → Bool
  createPlaybackBuffer : Nat → Bool
  resamplerInit : Nat → Nat → Int → Bool × Int

/-- An `AudioStreamer` behind its `shared_ptr`s. -/
structure SharedStreamer where
  owners : Nat
  rawSampleRate : Int
  cleanedUp : Bool
  disconnected : Bool
deriving DecidableEq, Repr

/-- The `private_t` of a start, with the streamer it creates. -/
structure InitData where
  sampling : Int
  nativeSampling : Int
  rtpPackets : Int
  channels : Nat
  pAudioStreamer : Bool
  mutex : Bool
  sbuffer : Option Nat
  playbackEnabled : Bool
  playbackBuffer : Option Nat
  playbackSampleRate : Int
  resampler : Bool
  playbackResampler : Bool
  streamer : Option SharedStreamer
deriving DecidableEq, Repr

namespace SharedStreamer

def create : SharedStreamer := ⟨1, 8000, false, false⟩

def copy (p : SharedStreamer) : SharedStreamer := { p with owners := p.owners + 1 }

def disconnect (p : SharedStreamer) : SharedStreamer := { p with disconnected := true }

/-- One `shared_ptr` is gone; the destructor that follows the last one disconnects. -/
def drop (p : SharedStreamer) : SharedStreamer :=
  if p.owners = 1 then { p with owners := 0 }.disconnect else { p with owners := p.owners - 1 }

def markCleanedUp (p : SharedStreamer) : SharedStreamer := { p with cleanedUp := true }

def setRawSampleRate (p : SharedStreamer) (rate : Int) : SharedStreamer :=
  { p with rawSampleRate := rate }

def configure (p : SharedStreamer) (sampleRate : Option (List UInt8)) : SharedStreamer :=
  match sampleRate with
  | some rate =>
    if 8000 ≤ atoi rate ∧ atoi rate % 8000 = 0 then p.setRawSampleRate (atoi rate) else p
  | none => p

end SharedStreamer

namespace InitConfig

def rtpPackets (cfg : InitConfig) : Int :=
  match cfg.bufferSize with
  | some size =>
    if atoi size % 20 ≠ 0 then 1 else if 20 ≤ atoi size then (atoi size).tdiv 20 else 1
  | none => 1

/-- `buflen`, computed with `int`s and converted to `size_t`. -/
def buflen (cfg : InitConfig) : Nat :=
  let frames := int32 ((int32 (frameSize8000 * cfg.sampling)).tdiv 8000)
  (int32 (int32 (frames * cfg.channels) * cfg.rtpPackets) % 2 ^ 64).toNat

def playbackBuflen (cfg : InitConfig) : Nat :=
  uint32 (uint32 (cfg.samplesPerSecond * 2) * playbackBufferSeconds)

/-- The comparison converts the `int` to `uint32_t`. -/
def resamples (cfg : InitConfig) : Bool :=
  decide ((cfg.sampling % 2 ^ 32).toNat ≠ cfg.samplesPerSecond)

end InitConfig

namespace InitData

def fresh (cfg : InitConfig) : InitData :=
  ⟨cfg.sampling, int32 cfg.samplesPerSecond, cfg.rtpPackets, cfg.channels, false, false, none,
    false, none, 0, false, false, none⟩

def dropStreamer (t : InitData) : InitData :=
  { t with streamer := t.streamer.map SharedStreamer.drop }

end InitData

/-- The last part of `stream_data_init`. -/
def initResampler (cfg : InitConfig) (calls : InitCalls) (t : InitData) : InitData × Bool :=
  if cfg.resamples then
    let out := calls.resamplerInit cfg.channels cfg.samplesPerSecond cfg.sampling
    ({ t with resampler := out.1 }, decide (out.2 = 0))
  else (t, true)

def initPlayback (cfg : InitConfig) (calls : InitCalls) (t : InitData) : InitData × Bool :=
  let t := { t with playbackEnabled := cfg.playback }
  if cfg.playback then
    if calls.createPlaybackBuffer cfg.playbackBuflen then
      initResampler cfg calls
        { t with playbackBuffer := some cfg.playbackBuflen,
                 playbackSampleRate := int32 cfg.samplesPerSecond,
                 playbackResampler := false }
    else (t, false)
  else initResampler cfg calls t

/-- `stream_data_init`, up to the end of the scope of `sp`. -/
def initStreamer (cfg : InitConfig) (calls : InitCalls) : InitData × Bool :=
  let sp := SharedStreamer.create.configure cfg.sampleRate
  let t :=
    { InitData.fresh cfg with streamer := some sp.copy, pAudioStreamer := true, mutex := true }
  if calls.createSbuffer cfg.buflen then
    initPlayback cfg calls { t with sbuffer := some cfg.buflen }
  else (t, false)

def streamDataInit (cfg : InitConfig) (calls : InitCalls) : InitData × Bool :=
  ((initStreamer cfg calls).1.dropStreamer, (initStreamer cfg calls).2)

def destroyTechPvt (t : InitData) : InitData :=
  { t with playbackResampler := false, resampler := false, mutex := false }

/-- The memory of the session, when there is any, and whether the start goes on. -/
def streamSessionInit (cfg : InitConfig) (calls : InitCalls) : Option InitData × Bool :=
  if calls.sessionAlloc then
    if (streamDataInit cfg calls).2 then (some (streamDataInit cfg calls).1, true)
    else (some (destroyTechPvt (streamDataInit cfg calls).1), false)
  else (none, false)

def streamSessionDestroy (t : InitData) : InitData :=
  let unpublished := { t with pAudioStreamer := false }
  if t.pAudioStreamer then
    destroyTechPvt
      { unpublished with
        streamer := unpublished.streamer.map fun p => p.markCleanedUp.disconnect.drop }
  else destroyTechPvt unpublished

/-- `start_capture` from the call of `stream_session_init` on. -/
def startSession (cfg : InitConfig) (calls : InitCalls) (bugAdd : Bool) :
    Option InitData × Bool :=
  match streamSessionInit cfg calls with
  | (t, true) => if bugAdd then (t, true) else (t.map streamSessionDestroy, false)
  | (t, false) => (t, false)

/-- The streamer, if there is one, has no owner and its worker was told to stop. -/
def NothingLeft (t : Option InitData) : Prop :=
  ∀ data ∈ t, ∀ p ∈ data.streamer, p.owners = 0 ∧ p.disconnected = true

/-- The calls that `stream_data_init` makes after it has created the streamer succeed. -/
structure InitCalls.Succeed (calls : InitCalls) (cfg : InitConfig) : Prop where
  sbuffer : calls.createSbuffer cfg.buflen = true
  playbackBuffer : cfg.playback = true → calls.createPlaybackBuffer cfg.playbackBuflen = true
  resampler : cfg.resamples = true →
    (calls.resamplerInit cfg.channels cfg.samplesPerSecond cfg.sampling).2 = 0

section Init

variable (cfg : InitConfig) (calls : InitCalls)

theorem initResampler_status (t : InitData) : (initResampler cfg calls t).2 = true ↔
    (cfg.resamples = true →
      (calls.resamplerInit cfg.channels cfg.samplesPerSecond cfg.sampling).2 = 0) := by
  unfold initResampler
  split
  next h => simp [h]
  next h => simp [h]

theorem initPlayback_status (t : InitData) : (initPlayback cfg calls t).2 = true ↔
    (cfg.playback = true → calls.createPlaybackBuffer cfg.playbackBuflen = true) ∧
      (cfg.resamples = true →
        (calls.resamplerInit cfg.channels cfg.samplesPerSecond cfg.sampling).2 = 0) := by
  unfold initPlayback
  split
  next hp =>
    split
    next hb => rw [initResampler_status]; simp [hb]
    next hb => simp [hp, hb]
  next hp => rw [initResampler_status]; simp [hp]

theorem streamDataInit_status : (streamDataInit cfg calls).2 = true ↔ calls.Succeed cfg := by
  unfold streamDataInit initStreamer
  split
  next hs =>
    rw [initPlayback_status]
    constructor
    · rintro ⟨hplayback, hresampler⟩
      exact ⟨hs, hplayback, hresampler⟩
    · intro h
      exact ⟨h.playbackBuffer, h.resampler⟩
  next hs =>
    constructor
    · intro h
      cases h
    · intro h
      exact absurd h.sbuffer hs

theorem initResampler_keeps (t : InitData) :
    (initResampler cfg calls t).1.streamer = t.streamer ∧
      (initResampler cfg calls t).1.pAudioStreamer = t.pAudioStreamer := by
  unfold initResampler
  split <;> exact ⟨rfl, rfl⟩

theorem initPlayback_keeps (t : InitData) :
    (initPlayback cfg calls t).1.streamer = t.streamer ∧
      (initPlayback cfg calls t).1.pAudioStreamer = t.pAudioStreamer := by
  unfold initPlayback
  split
  next =>
    split
    next => exact initResampler_keeps cfg calls _
    next => exact ⟨rfl, rfl⟩
  next => exact initResampler_keeps cfg calls _

theorem configure_create (sampleRate : Option (List UInt8)) :
    ∃ rate, SharedStreamer.create.configure sampleRate = ⟨1, rate, false, false⟩ := by
  unfold SharedStreamer.configure
  split
  next =>
    split
    next => exact ⟨_, rfl⟩
    next => exact ⟨8000, rfl⟩
  next => exact ⟨8000, rfl⟩

/-- Whatever the calls return, `pAudioStreamer` owns the streamer and nobody stops it. -/
theorem streamDataInit_streamer : (streamDataInit cfg calls).1.pAudioStreamer = true ∧
    ∃ rate, (streamDataInit cfg calls).1.streamer = some ⟨1, rate, false, false⟩ := by
  obtain ⟨rate, hrate⟩ := configure_create cfg.sampleRate
  unfold streamDataInit initStreamer InitData.dropStreamer
  split
  next =>
    refine ⟨(initPlayback_keeps cfg calls _).2, rate, ?_⟩
    rw [(initPlayback_keeps cfg calls _).1, hrate]
    rfl
  next =>
    refine ⟨rfl, rate, ?_⟩
    rw [hrate]
    rfl

theorem streamSessionDestroy_leaves_nothing {t : InitData} (hp : t.pAudioStreamer = true)
    (hs : ∀ p ∈ t.streamer, p.owners = 1) : NothingLeft (some (streamSessionDestroy t)) := by
  intro data hdata p hpdata
  obtain rfl : streamSessionDestroy t = data := Option.some.inj hdata
  rw [streamSessionDestroy, if_pos hp] at hpdata
  obtain ⟨q, hq, rfl⟩ := Option.map_eq_some_iff.mp hpdata
  have howners : q.markCleanedUp.disconnect.owners = 1 := hs q hq
  rw [SharedStreamer.drop, if_pos howners]
  exact ⟨rfl, rfl⟩

/-- The failure that comes after `stream_session_init` leaves nothing behind. -/
theorem failed_bugAdd_leaves_nothing (h : calls.Succeed cfg) :
    NothingLeft (startSession cfg calls false).1 := by
  obtain ⟨hp, rate, hs⟩ := streamDataInit_streamer cfg calls
  unfold startSession streamSessionInit
  rw [if_pos ((streamDataInit_status cfg calls).mpr h)]
  cases calls.sessionAlloc with
  | true =>
    refine streamSessionDestroy_leaves_nothing hp fun p hpdata => ?_
    rw [hs] at hpdata
    obtain rfl := Option.some.inj hpdata
    rfl
  | false =>
    intro data hdata
    cases hdata

/-- A failed `stream_session_init` leaves nothing behind if and only if it failed before it
created a streamer: none of the calls after that may fail. -/
theorem failed_start_leaves_nothing_iff :
    ((streamSessionInit cfg calls).2 = false → NothingLeft (streamSessionInit cfg calls).1) ↔
      calls.sessionAlloc = false ∨ calls.Succeed cfg := by
  obtain ⟨hp, rate, hs⟩ := streamDataInit_streamer cfg calls
  unfold streamSessionInit
  cases halloc : calls.sessionAlloc with
  | false =>
    refine iff_of_true (fun _ data hdata => ?_) (Or.inl rfl)
    cases hdata
  | true =>
    by_cases h : calls.Succeed cfg
    · have hstatus := (streamDataInit_status cfg calls).mpr h
      refine iff_of_true (fun hfail => ?_) (Or.inr h)
      rw [if_pos rfl, if_pos hstatus] at hfail
      cases hfail
    · have hstatus := mt (streamDataInit_status cfg calls).mp h
      refine iff_of_false (fun hleft => ?_) (by simpa using h)
      rw [if_pos rfl, if_neg hstatus] at hleft
      have hone := (hleft rfl _ rfl _ hs).1
      cases hone

end Init

/-- `mono 0`: speex refuses the rate 0. -/
theorem refused_rate_leaves_streamer : ¬∀ (cfg : InitConfig) (calls : InitCalls),
    (streamSessionInit cfg calls).2 = false → NothingLeft (streamSessionInit cfg calls).1 := by
  intro h
  have hleft := h ⟨8000, 0, 1, none, none, false⟩
    ⟨true, fun _ => true, fun _ => true, fun _ _ rate => if rate = 0 then (false, 3) else (true, 0)⟩
    (by decide) _ rfl _ rfl
  exact absurd hleft.1 (by decide)

end ModAudioStream
