import ModAudioStream.RawMode
import ModAudioStream.PlaybackFrames
import ModAudioStream.ServerFrames
import Mathlib.Data.List.TakeWhile

namespace ModAudioStream

/-- `c_str()` of a string, which may hold a NUL. -/
def cStr (s : List UInt8) : CString :=
  ⟨s.takeWhile (· != 0), fun h => by simpa using List.mem_takeWhile_imp h⟩

/-- The part of a session that audio from the server passes through: the receiver, whether the
worker is in the loop of `processFrame`, the streamer with the playback fields, the bytes injected
since the last break and the events fired. -/
structure Inbound (ρ : Type*) where
  receiver : Receiver
  processing : Bool
  streamer : StreamerAudio ρ
  injected : List UInt8
  events : List PlaybackEvent

/-- The worker reads a chunk and takes frame after frame out of it; between any two of its steps
the media thread may write a frame, and the queue may be broken off. -/
inductive InboundAct where
  | recv (chunk : List UInt8)
  | frame (initOk : Bool)
  | tick (locked : Bool) (rframe : Option Nat)
  | breakCommand
deriving DecidableEq

/-- The bytes that a step reads from the socket. -/
def InboundAct.chunk : InboundAct → List UInt8
  | .recv chunk => chunk
  | _ => []

namespace Inbound

variable {ρ : Type*} (speex : Speex ρ) (native : NativeRate) (libs : MessageLibs)
  (sid : List UInt8)

/-- A new connection of a session that plays. -/
def start : Inbound ρ :=
  ⟨.fresh .opened true true, false, ⟨false, 8000, some (.start native true)⟩, [], []⟩

/-- The callbacks of the streamer. -/
def callback (initOk : Bool) (streamer : StreamerAudio ρ) : Reaction → StreamerAudio ρ
  | .message msg => (streamer.messageCallback speex native libs sid true initOk (cStr msg)).1
  | .binary data => streamer.binaryCallback speex native true initOk data
  | .pong _ => streamer

def step (s : Inbound ρ) : InboundAct → Inbound ρ
  | .recv chunk =>
    { s with receiver := { s.receiver with rxbuf := s.receiver.rxbuf ++ chunk },
             processing := true }
  | .frame initOk =>
    match frameStep s.receiver with
    | .wait => { s with processing := false }
    -- what comes of such an access is undefined; the frames of a server do not lead there
    | .outside => s
    | .close r => { s with receiver := r, processing := false }
    | .next r =>
      { s with receiver := r,
               streamer := (r.out.drop s.receiver.out.length).foldl
                 (callback speex native libs sid initOk) s.streamer }
  | .tick locked rframe =>
    match s.streamer.playback with
    | none => s
    | some p =>
      let out := p.streamFrameWrite native locked rframe
      { s with streamer := { s.streamer with playback := some out.1 },
               injected := s.injected ++ out.2.1, events := s.events ++ out.2.2 }
  | .breakCommand =>
    match s.streamer.playback with
    | none => s
    | some p =>
      if p.cleanupStarted then s
      else
        let out := p.streamSessionBreak speex
        { s with streamer := { s.streamer with playback := some out.1 },
                 injected := [], events := s.events ++ out.2 }

def Enabled (s : Inbound ρ) : InboundAct → Prop
  | .recv _ => s.processing = false ∧ s.receiver.running = true
  | .frame _ => s.processing = true
  | .tick _ _ | .breakCommand => True

end Inbound

/-- What a reaction means to the streamer. -/
inductive Incoming where
  | rawMode (rate : Int)
  | audio (rate : Int) (data : List UInt8)
  | binary (data : List UInt8)
  | other

/-- Whether raw mode is on, and its rate. -/
abbrev RawState := Bool × Int

namespace Incoming

/-- A text message by its result. -/
def ofResult (pr : ProcessResult) : Incoming :=
  if pr.ok then
    if pr.audioDataType = ascii "raw" ∧ pr.decodedAudio = [] then .rawMode pr.sampleRate
    else if pr.decodedAudio ≠ [] then .audio pr.sampleRate pr.decodedAudio
    else .other
  else .other

def ofReaction (libs : MessageLibs) (sid : List UInt8) : Reaction → Incoming
  | .message msg => ofResult (processMessage libs sid (cStr msg))
  | .binary data => .binary data
  | .pong _ => .other

def next (raw : RawState) : Incoming → RawState
  | .rawMode rate => (true, rate)
  | _ => raw

/-- The audio that is to be played. -/
def sound (raw : RawState) : Incoming → List UInt8
  | .audio _ data => data
  | .binary data => if raw.1 then data else []
  | _ => []

/-- Its audio is whole frames at the channel's rate. -/
def AtRate (native : NativeRate) (raw : RawState) : Incoming → Prop
  | .audio rate data => rate = native.value ∧ native.frameBytes ∣ data.length
  | .binary data => raw.1 = true → raw.2 = native.value ∧ native.frameBytes ∣ data.length
  | _ => True

end Incoming

def AllAtRate (native : NativeRate) : RawState → List Incoming → Prop
  | _, [] => True
  | raw, x :: xs => x.AtRate native raw ∧ AllAtRate native (x.next raw) xs

/-- What the streamer makes of the frames of a server. -/
def incoming (libs : MessageLibs) (sid : List UInt8) (fs : List ServerFrame) : List Incoming :=
  (fs.flatMap (·.reactions true true)).map (.ofReaction libs sid)

namespace Inbound

variable {ρ : Type*} {speex : Speex ρ} {native : NativeRate} {libs : MessageLibs}
  {sid : List UInt8}

def raw (s : Inbound ρ) : RawState := (s.streamer.rawAudioActive, s.streamer.rawSampleRate)

/-- The next frame brings audio for which there is no room, or the core has no frame to replace. -/
def Spoils (native : NativeRate) (libs : MessageLibs) (sid : List UInt8) (s : Inbound ρ) :
    InboundAct → Prop
  | .frame _ => ∃ f rest, nextFrame s.receiver.rxbuf = some (f, rest) ∧
      ∃ reaction ∈ s.receiver.handle f, ∃ p, s.streamer.playback = some p ∧
        native.capacity <
          p.buffer.length + ((Incoming.ofReaction libs sid reaction).sound s.raw).length
  | .tick locked rframe => ∃ p, s.streamer.playback = some p ∧
      p.reads native locked = true ∧ Playback.replaces native rframe = false
  | _ => False

/-- The session plays what `heard` brought, without what `cleared` says was broken off. -/
structure Hears (native : NativeRate) (s : Inbound ρ) (cleared heard : List UInt8) : Prop where
  plays : ∃ (r : PlaybackRun ρ) (q : FramePlayer (List UInt8)),
    s.streamer.playback = some r.play ∧ s.injected = r.injected ∧ s.events = r.events ∧
      r.Plays native q ∧ q.Sound ∧ q.closed = false ∧ cleared ++ q.arrived.flatten = heard

/-- The frames not yet taken are what is left of the stream, with the start of another. -/
structure Awaits (s : Inbound ρ) (future : List UInt8) (todo : List ServerFrame)
    (tail : List UInt8) : Prop where
  bytes : s.receiver.rxbuf ++ future = todo.flatMap ServerFrame.encode ++ tail
  waits : s.processing = false → nextFrame s.receiver.rxbuf = none
  running : s.receiver.running = true
  onMessage : s.receiver.onMessage = true
  onBinary : s.receiver.onBinary = true

/-- Between two steps: what was taken has been heard, and what is to come is at the channel's
rate. -/
structure Served (native : NativeRate) (libs : MessageLibs) (sid : List UInt8) (s : Inbound ρ)
    (future : List UInt8) (todo : List ServerFrame) (tail cleared heard : List UInt8) : Prop where
  hears : s.Hears native cleared heard
  awaits : s.Awaits future todo tail
  rate : AllAtRate native s.raw (incoming libs sid todo)
  closes : ∀ f ∈ todo, f.closes = false

end Inbound

end ModAudioStream
