import ModAudioStream.Runs
import Mathlib.Tactic.Ring

namespace ModAudioStream

def playbackBufferSeconds : Nat := 30

def playbackFrameMs : Nat := 20

/-- `native_sampling`: a rate with at least one whole byte in a frame, for which the
source's `int` arithmetic does not overflow. -/
structure NativeRate where
  value : Nat
  frame_pos : 0 < value * 2 * playbackFrameMs / 1000
  fits : value * 2 * playbackFrameMs < 2 ^ 31

namespace NativeRate

def frameBytes (native : NativeRate) : Nat := native.value * 2 * playbackFrameMs / 1000

/-- `playback_buflen`. -/
def capacity (native : NativeRate) : Nat := native.value * 2 * playbackBufferSeconds

/-- What a tick reads: a frame, or what `frame_buf` holds of it. -/
def readSize (native : NativeRate) : Nat := min native.frameBytes 4096

theorem frameBytes_pos (native : NativeRate) : 0 < native.frameBytes := native.frame_pos

theorem readSize_pos (native : NativeRate) : 0 < native.readSize := by
  have hpos := native.frameBytes_pos
  unfold readSize
  omega

theorem readSize_le (native : NativeRate) : native.readSize ≤ native.frameBytes :=
  Nat.min_le_left _ _

end NativeRate

def int32 (n : Int) : Int := n.bmod (2 ^ 32)

theorem int32_def (n : Int) : int32 n = if n % 4294967296 < 2147483648 then n % 4294967296
    else n % 4294967296 - 4294967296 := rfl

theorem int32_eq {n : Int} (hlo : -2147483648 ≤ n) (hhi : n < 2147483648) : int32 n = n := by
  rw [int32_def]
  split
  · omega
  · omega

def uint32 (n : Nat) : Nat := n % 2 ^ 32

/-- The two bytes of a 16-bit sample, as they lie in memory. -/
abbrev Sample := UInt8 × UInt8

def sampleBytes (samples : List Sample) : List UInt8 := samples.flatMap fun x => [x.1, x.2]

/-- The bytes that are taken of the output: `out_len * 2`, which is 32 bits wide. -/
def outBytes (samples : List Sample) : List UInt8 :=
  (sampleBytes samples).take (uint32 (samples.length * 2))

def toSamples : List UInt8 → List Sample
  | a :: b :: rest => (a, b) :: toSamples rest
  | _ => []

/-- The resampler, which is not part of this repository: `process` is given the input
samples and the room for output, and returns what it produced. -/
structure Speex (ρ : Type*) where
  init : Int → Int → ρ
  process : ρ → List Sample → Nat → List Sample × ρ
  resetMem : ρ → ρ

inductive PlaybackEventType where
  | chunkPlayed
  | queueCompleted
deriving DecidableEq, Repr

structure PlaybackEvent where
  event : PlaybackEventType
  seq : Option Int
  size : Option Int
  remaining : Option Int
  totalChunks : Option Int
deriving DecidableEq, Repr

/-- `fire_playback_event` leaves negative numbers out. -/
def firePlaybackEvent (event : PlaybackEventType) (seq size remaining total : Int) :
    PlaybackEvent :=
  ⟨event, if 0 ≤ seq then some seq else none, if 0 ≤ size then some size else none,
    if 0 ≤ remaining then some remaining else none, if 0 ≤ total then some total else none⟩

/-- The fields of `private_t` that playback uses. `playback_buffer` exists when
`playback_enabled` is set, and `switch_buffer_write` writes all or nothing. -/
structure Playback (ρ : Type*) where
  enabled : Bool
  paused : Bool
  cleanupStarted : Bool
  inResponse : Bool
  buffer : List UInt8
  resampler : Option ρ
  sampleRate : Int
  seq : Int
  chunksRemaining : Int

namespace Playback

variable {ρ : Type*} (speex : Speex ρ) (native : NativeRate)

def start (enabled : Bool) : Playback ρ :=
  ⟨enabled, false, false, false, [], none, native.value, 0, 0⟩

def ensureResampler (p : Playback ρ) (rate : Int) (initOk : Bool) : Playback ρ :=
  if p.resampler.isNone ∨ p.sampleRate ≠ rate then
    if initOk then { p with resampler := some (speex.init rate native.value), sampleRate := rate }
    else { p with resampler := none, sampleRate := 0 }
  else p

def outLen (srcLen : Nat) (rate : Int) : Nat :=
  uint32 (uint32 (srcLen / 2) * native.value / rate.toNat + 32)

def resample (p : Playback ρ) (rate : Int) (src : List UInt8) (initOk : Bool) :
    Playback ρ × List UInt8 :=
  if rate ≠ native.value ∧ 0 < rate ∧ 0 < src.length then
    let p := p.ensureResampler speex native rate initOk
    match p.resampler with
    | none => (p, src)
    | some resampler =>
      let out := speex.process resampler ((toSamples src).take (uint32 (src.length / 2)))
        (outLen native src.length rate)
      ({ p with resampler := some out.2 }, if 0 < out.1.length then outBytes out.1 else src)
  else (p, src)

/-- `switch_buffer_write`: the bytes that get into the buffer. -/
def bufferWrite (p : Playback ρ) (src : List UInt8) : List UInt8 :=
  if p.buffer.length + src.length ≤ native.capacity then src else []

/-- The locked part that `eventCallback` and `onBinaryData` share, with the bytes written. -/
def queueAudio (p : Playback ρ) (rate : Int) (src : List UInt8) (initOk : Bool) :
    Playback ρ × List UInt8 :=
  if p.cleanupStarted then (p, [])
  else if !p.enabled then (p, [])
  else
    let out := p.resample speex native rate src initOk
    let written := out.1.bufferWrite native out.2
    ({ out.1 with
        buffer := out.1.buffer ++ written, inResponse := true,
        chunksRemaining :=
          int32 (out.1.chunksRemaining + int32 (out.2.length / native.frameBytes : Nat)) },
      written)

/-- A `streamAudio` message whose audio decoded to `decodedAudio`. -/
def eventCallback (p : Playback ρ) (sampleRate : Int) (decodedAudio : List UInt8)
    (initOk : Bool) : Playback ρ × List UInt8 :=
  if decodedAudio.isEmpty then (p, [])
  else p.queueAudio speex native sampleRate decodedAudio initOk

def onBinaryData (p : Playback ρ) (rawAudioActive : Bool) (rawSampleRate : Int)
    (data : List UInt8) (initOk : Bool) : Playback ρ × List UInt8 :=
  if !rawAudioActive || data.isEmpty then (p, [])
  else p.queueAudio speex native rawSampleRate data initOk

/-- What `stream_frame_write` tests before it looks at the buffer; `locked` is the answer
of `switch_mutex_trylock`. -/
def ticks (p : Playback ρ) (locked : Bool) : Bool :=
  p.enabled && !p.paused && !p.cleanupStarted && p.inResponse && locked

def replaces (rframe : Option Nat) : Bool :=
  match rframe with
  | none => false
  | some datalen => native.readSize ≤ datalen

/-- `stream_frame_write`, given the `datalen` of the write-replace frame, if there is one.
Returns the bytes injected and the events fired. -/
def streamFrameWrite (p : Playback ρ) (locked : Bool) (rframe : Option Nat) :
    Playback ρ × List UInt8 × List PlaybackEvent :=
  if !p.ticks locked then (p, [], [])
  else if native.frameBytes ≤ p.buffer.length then
    let frame := p.buffer.take native.readSize
    let p := { p with buffer := p.buffer.drop native.readSize }
    if replaces native rframe then
      let p := { p with seq := int32 (p.seq + 1),
                        chunksRemaining := int32 (p.chunksRemaining - 1) }
      let played := firePlaybackEvent .chunkPlayed p.seq native.readSize p.chunksRemaining (-1)
      if p.chunksRemaining ≤ 0 then
        ({ p with inResponse := false, seq := 0 }, frame,
          [played, firePlaybackEvent .queueCompleted (-1) (-1) (-1) p.seq])
      else (p, frame, [played])
    else (p, [], [])
  else ({ p with inResponse := false }, [], [])

/-- `stream_session_break`; without the channel private it fails. -/
def streamSessionBreak (p : Playback ρ) : Playback ρ × List PlaybackEvent :=
  if p.cleanupStarted then (p, [])
  else
    ({ p with buffer := [], resampler := p.resampler.map speex.resetMem, inResponse := false,
              seq := 0, chunksRemaining := 0 },
      [firePlaybackEvent .queueCompleted (-1) (-1) (-1) 0])

variable {speex} {native}

theorem ensureResampler_frame (p : Playback ρ) (rate : Int) (initOk : Bool) :
    ∃ resampler sampleRate, p.ensureResampler speex native rate initOk =
      { p with resampler := resampler, sampleRate := sampleRate } := by
  unfold ensureResampler
  split
  · split <;> exact ⟨_, _, rfl⟩
  · exact ⟨_, _, rfl⟩

theorem resample_frame (p : Playback ρ) (rate : Int) (src : List UInt8) (initOk : Bool) :
    ∃ resampler sampleRate, (p.resample speex native rate src initOk).1 =
      { p with resampler := resampler, sampleRate := sampleRate } := by
  unfold resample
  split
  · obtain ⟨resampler, sampleRate, hq⟩ :=
      @ensureResampler_frame ρ speex native p rate initOk
    rw [hq]
    simp only
    split <;> exact ⟨_, _, rfl⟩
  · exact ⟨_, _, rfl⟩

/-- What an arrival comes to: it is ignored, or bytes are written and the session is put
in response. -/
inductive Queued (p : Playback ρ) : Playback ρ × List UInt8 → Prop
  | ignored : Queued p (p, [])
  | queued (resampler : Option ρ) (sampleRate chunksRemaining : Int) (written : List UInt8) :
      Queued p ({ p with buffer := p.buffer ++ written, inResponse := true,
                         resampler := resampler, sampleRate := sampleRate,
                         chunksRemaining := chunksRemaining }, written)

theorem queueAudio_queued (p : Playback ρ) (rate : Int) (src : List UInt8) (initOk : Bool) :
    p.Queued (p.queueAudio speex native rate src initOk) := by
  unfold queueAudio
  split
  · exact .ignored
  · split
    · exact .ignored
    · obtain ⟨resampler, sampleRate, hq⟩ := @resample_frame ρ speex native p rate src initOk
      simp only [hq]
      exact .queued resampler sampleRate _ _

theorem eventCallback_queued (p : Playback ρ) (sampleRate : Int) (decodedAudio : List UInt8)
    (initOk : Bool) : p.Queued (p.eventCallback speex native sampleRate decodedAudio initOk) := by
  unfold eventCallback
  split
  · exact .ignored
  · exact queueAudio_queued p sampleRate decodedAudio initOk

theorem onBinaryData_queued (p : Playback ρ) (rawAudioActive : Bool) (rawSampleRate : Int)
    (data : List UInt8) (initOk : Bool) :
    p.Queued (p.onBinaryData speex native rawAudioActive rawSampleRate data initOk) := by
  unfold onBinaryData
  split
  · exact .ignored
  · exact queueAudio_queued p rawSampleRate data initOk

def reads (native : NativeRate) (p : Playback ρ) (locked : Bool) : Bool :=
  p.ticks locked && decide (native.frameBytes ≤ p.buffer.length)

theorem streamFrameWrite_injects {p : Playback ρ} {locked : Bool} {rframe : Option Nat}
    (hr : p.reads native locked = true) (hi : replaces native rframe = true) :
    p.streamFrameWrite native locked rframe =
      ({ p with
          buffer := p.buffer.drop native.readSize,
          chunksRemaining := int32 (p.chunksRemaining - 1),
          inResponse := decide (¬int32 (p.chunksRemaining - 1) ≤ 0),
          seq := if int32 (p.chunksRemaining - 1) ≤ 0 then 0 else int32 (p.seq + 1) },
        p.buffer.take native.readSize,
        firePlaybackEvent .chunkPlayed (int32 (p.seq + 1)) native.readSize
            (int32 (p.chunksRemaining - 1)) (-1) ::
          if int32 (p.chunksRemaining - 1) ≤ 0 then
            [firePlaybackEvent .queueCompleted (-1) (-1) (-1) (int32 (p.seq + 1))]
          else []) := by
  simp only [reads, Bool.and_eq_true, decide_eq_true_eq] at hr
  have hin : p.inResponse = true := by
    have ht := hr.1
    simp only [ticks, Bool.and_eq_true] at ht
    exact ht.1.2
  unfold streamFrameWrite
  rw [if_neg (by simp [hr.1]), if_pos hr.2, if_pos hi]
  by_cases hc : int32 (p.chunksRemaining - 1) ≤ 0
  · simp [hc]
  · simp [hc, hin]

theorem streamFrameWrite_loses {p : Playback ρ} {locked : Bool} {rframe : Option Nat}
    (hr : p.reads native locked = true) (hi : replaces native rframe = false) :
    p.streamFrameWrite native locked rframe =
      ({ p with buffer := p.buffer.drop native.readSize }, [], []) := by
  simp only [reads, Bool.and_eq_true, decide_eq_true_eq] at hr
  unfold streamFrameWrite
  rw [if_neg (by simp [hr.1]), if_pos hr.2, if_neg (by simp [hi])]

theorem streamFrameWrite_idle {p : Playback ρ} {locked : Bool} (rframe : Option Nat)
    (hr : p.reads native locked = false) :
    p.streamFrameWrite native locked rframe = (p, [], []) ∨
    p.buffer.length < native.frameBytes ∧
      p.streamFrameWrite native locked rframe = ({ p with inResponse := false }, [], []) := by
  unfold streamFrameWrite
  split
  · exact Or.inl rfl
  next ht =>
    have hlt : ¬native.frameBytes ≤ p.buffer.length := by
      intro hle
      simp_all [reads]
    exact Or.inr ⟨Nat.lt_of_not_le hlt, by rw [if_neg hlt]⟩

end Playback

inductive PlaybackAct where
  | streamAudio (sampleRate : Int) (decodedAudio : List UInt8) (initOk : Bool)
  | binary (rawAudioActive : Bool) (rawSampleRate : Int) (data : List UInt8) (initOk : Bool)
  | tick (locked : Bool) (rframe : Option Nat)
  | breakCommand
  | cleanup

/-- A run: the state, what was written to `playback_buffer` and injected since the last
break, and the events fired. -/
structure PlaybackRun (ρ : Type*) where
  play : Playback ρ
  written : List UInt8
  injected : List UInt8
  events : List PlaybackEvent

namespace PlaybackRun

variable {ρ : Type*} (speex : Speex ρ) (native : NativeRate)

def start (enabled : Bool) : PlaybackRun ρ := ⟨.start native enabled, [], [], []⟩

def arrive (r : PlaybackRun ρ) (out : Playback ρ × List UInt8) : PlaybackRun ρ :=
  { r with play := out.1, written := r.written ++ out.2 }

def step (r : PlaybackRun ρ) : PlaybackAct → PlaybackRun ρ
  | .streamAudio sampleRate decodedAudio initOk =>
    r.arrive (r.play.eventCallback speex native sampleRate decodedAudio initOk)
  | .binary rawAudioActive rawSampleRate data initOk =>
    r.arrive (r.play.onBinaryData speex native rawAudioActive rawSampleRate data initOk)
  | .tick locked rframe =>
    let out := r.play.streamFrameWrite native locked rframe
    { r with play := out.1, injected := r.injected ++ out.2.1, events := r.events ++ out.2.2 }
  | .breakCommand =>
    let out := r.play.streamSessionBreak speex
    if r.play.cleanupStarted then r
    else ⟨out.1, [], [], r.events ++ out.2⟩
  | .cleanup => { r with play := { r.play with cleanupStarted := true } }

end PlaybackRun

def PlaybackStep {ρ : Type*} (speex : Speex ρ) (native : NativeRate) (r : PlaybackRun ρ)
    (a : PlaybackAct) (r' : PlaybackRun ρ) : Prop := r.step speex native a = r'

end ModAudioStream
