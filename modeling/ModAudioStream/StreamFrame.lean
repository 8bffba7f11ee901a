import ModAudioStream.Playback

namespace ModAudioStream

def frameSize8000 : Nat := 320

/-- `buflen`, the capacity that `stream_data_init` gives `sbuffer`. -/
def sbufferLength (desiredSampling channels rtpPackets : Nat) : Nat :=
  frameSize8000 * desiredSampling / 8000 * channels * rtpPackets

/-- What a resampler call reports: the samples it consumed of each channel, the samples it
put out, and their bytes. -/
structure Resampled (ρ : Type*) where
  inLen : Nat
  outLen : Nat
  out : List UInt8
  state : ρ

/-- The resampler, which is not part of this repository: `process` is given the frame, its
samples and the room. It takes the samples that it needs to fill the room, or all of them,
and puts out no more than there is room for. -/
structure CaptureSpeex (ρ : Type*) (channels : Nat) where
  process : ρ → List UInt8 → Nat → Nat → Resampled ρ
  demand : ρ → Nat → Nat
  inLen_eq : ∀ r data inLen room, (process r data inLen room).inLen = min inLen (demand r room)
  outLen_le : ∀ r data inLen room, (process r data inLen room).outLen ≤ room
  out_length : ∀ r data inLen room, (process r data inLen room).out.length =
    (process r data inLen room).outLen * (channels * 2)

/-- Every one of the first `n` samples twice. -/
def doubled (data : List UInt8) (n : Nat) : List UInt8 :=
  (List.range n).flatMap fun i =>
    [data.getD (2 * i) 0, data.getD (2 * i + 1) 0, data.getD (2 * i) 0, data.getD (2 * i + 1) 0]

/-- Twice the rate on one channel, as long as there is room. -/
def doublingSpeex : CaptureSpeex Unit 1 where
  process _ data inLen room :=
    let n := min inLen (room / 2)
    ⟨n, n * 2, doubled data n, ()⟩
  demand _ room := room / 2
  inLen_eq _ _ _ _ := rfl
  outLen_le _ data inLen room := by
    show min inLen (room / 2) * 2 ≤ room
    omega
  out_length _ data inLen room := by
    simp [doubled, List.length_flatMap]
    omega

structure CapturedFrame where
  data : List UInt8
  samples : Nat
deriving DecidableEq, Repr

/-- The fields of `private_t` that `stream_frame` uses under the mutex. -/
structure Capture (ρ : Type*) where
  rtpPackets : Nat
  resampler : Option ρ
  capacity : Nat
  sbuffer : List UInt8

namespace Capture

variable {ρ : Type*} {channels : Nat}

def freespace (c : Capture ρ) : Nat := c.capacity - c.sbuffer.length

/-- `switch_buffer_write`, where the caller has looked at the free space. -/
def bufferWrite (c : Capture ρ) (data : List UInt8) : Capture ρ :=
  if data.length ≤ c.freespace then { c with sbuffer := c.sbuffer ++ data } else c

theorem bufferWrite_fits {c : Capture ρ} {data : List UInt8} (h : data.length ≤ c.freespace) :
    c.bufferWrite data = { c with sbuffer := c.sbuffer ++ data } := if_pos h

/-- A full `sbuffer` is emptied into `pending_send`. -/
def flush (c : Capture ρ) : Capture ρ × List (List UInt8) :=
  if c.freespace = 0 ∧ 0 < c.sbuffer.length then ({ c with sbuffer := [] }, [c.sbuffer])
  else (c, [])

end Capture

/-- A run of `stream_frame`: the state, the chunks in `pending_send` and those handed to
`writeBinary`, the bytes of the frames read, and what the resampler took and put out. -/
structure Forwarding (ρ : Type*) where
  tap : Capture ρ
  pending : List (List UInt8)
  sent : List (List UInt8)
  captured : List UInt8
  consumed : List UInt8
  produced : List UInt8

/-- One call of `stream_frame`: what it finds, and the frames it reads. -/
structure StreamFrameCall where
  audioPaused : Bool
  cleanupStarted : Bool
  locked : Bool
  hasStreamer : Bool
  connected : Bool
  frames : List CapturedFrame

def StreamFrameCall.reads (call : StreamFrameCall) : Bool :=
  !call.audioPaused && !call.cleanupStarted && call.locked && call.hasStreamer

def StreamFrameCall.bytes (call : StreamFrameCall) : List UInt8 :=
  if call.reads then (call.frames.map (·.data)).flatten else []

namespace Forwarding

variable {ρ : Type*} {channels : Nat}

def start (rtpPackets capacity : Nat) (resampler : Option ρ) : Forwarding ρ :=
  ⟨⟨rtpPackets, resampler, capacity, []⟩, [], [], [], [], []⟩

def flush (s : Forwarding ρ) : Forwarding ρ :=
  { s with tap := s.tap.flush.1, pending := s.pending ++ s.tap.flush.2 }

/-- The samples of each channel that the resampler may put out. -/
def room (s : Forwarding ρ) (channels : Nat) : Nat := uint32 (s.tap.freespace / (channels * 2))

/-- The body of the loop without a resampler. -/
def readDirect (s : Forwarding ρ) (f : CapturedFrame) : Forwarding ρ :=
  if f.data.isEmpty then s
  else if s.tap.rtpPackets = 1 then { s with pending := s.pending ++ [f.data] }
  else ({ s with tap := s.tap.bufferWrite f.data } : Forwarding ρ).flush

/-- The body of the loop with a resampler. -/
def readResampled (speex : CaptureSpeex ρ channels) (resampler : ρ) (s : Forwarding ρ)
    (f : CapturedFrame) : Forwarding ρ :=
  if f.data.isEmpty then s
  else
    let room := s.room channels
    if room = 0 then s.flush
    else
      let r := speex.process resampler f.data f.samples room
      let s := { s with tap := { s.tap with resampler := some r.state },
                        consumed := s.consumed ++ f.data.take (r.inLen * (channels * 2)),
                        produced := s.produced ++ r.out }
      if 0 < r.outLen then
        if s.tap.rtpPackets = 1 then { s with pending := s.pending ++ [r.out] }
        else ({ s with tap := s.tap.bufferWrite r.out } : Forwarding ρ).flush
      else s.flush

def read (speex : CaptureSpeex ρ channels) (s : Forwarding ρ) (f : CapturedFrame) : Forwarding ρ :=
  let s := { s with captured := s.captured ++ f.data }
  match s.tap.resampler with
  | none => s.readDirect f
  | some resampler => s.readResampled speex resampler f

/-- `writeBinary` for every chunk that is not empty. -/
def send (s : Forwarding ρ) (connected : Bool) : Forwarding ρ :=
  { s with pending := [],
           sent := s.sent ++ if connected then s.pending.filter (!·.isEmpty) else [] }

def streamFrame (speex : CaptureSpeex ρ channels) (s : Forwarding ρ) (call : StreamFrameCall) :
    Forwarding ρ :=
  if call.reads then (call.frames.foldl (read speex) s).send call.connected else s

end Forwarding

def ReadStep {ρ : Type*} {channels : Nat} (speex : CaptureSpeex ρ channels) (s : Forwarding ρ)
    (f : CapturedFrame) (t : Forwarding ρ) : Prop := s.read speex f = t

end ModAudioStream
