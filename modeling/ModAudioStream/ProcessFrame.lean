import ModAudioStream.SendFrame
import ModAudioStream.StreamDecoder

namespace ModAudioStream

def byteAt (buf : List UInt8) (i : Nat) : UInt8 := buf.getD i 0

structure Head where
  fin : Bool
  opcode : UInt8
  masked : Bool
  maskKey : MaskKey
  headerSize : Nat
  N : Nat
deriving DecidableEq, Repr

/-- Header size without the mask key, and the payload length `N`; `none` when
the extended length has not arrived yet. -/
def readLength (buf : List UInt8) : Option (Nat × Nat) :=
  let n := (byteAt buf 1 &&& 0x7F).toNat
  if n = 126 then
    if buf.length < 4 then none else some (4, beNat ((buf.drop 2).take 2))
  else if n = 127 then
    if buf.length < 10 then none else some (10, beNat ((buf.drop 2).take 8))
  else some (2, n)

def readHead (buf : List UInt8) : Option Head :=
  if buf.length < 2 then none
  else
    match readLength buf with
    | none => none
    | some (headerSize, N) =>
      let fin := byteAt buf 0 &&& 0x80 != 0
      let opcode := byteAt buf 0 &&& 0x0F
      if byteAt buf 1 &&& 0x80 != 0 then
        if buf.length < headerSize + 4 then none
        else
          let key : MaskKey := ⟨byteAt buf headerSize, byteAt buf (headerSize + 1),
            byteAt buf (headerSize + 2), byteAt buf (headerSize + 3)⟩
          some ⟨fin, opcode, true, key, headerSize + 4, N⟩
      else some ⟨fin, opcode, false, ⟨0, 0, 0, 0⟩, headerSize, N⟩

inductive Reaction where
  | message (msg : List UInt8)
  | binary (data : List UInt8)
  | pong (payload : List UInt8)
deriving DecidableEq, Repr

/-- The part of a `WebSocketClient` that `processFrame` reads and writes, with
the callbacks and pongs it has made so far. -/
structure Receiver where
  rxbuf : List UInt8
  state : State
  running : Bool
  onMessage : Bool
  onBinary : Bool
  out : List Reaction
deriving DecidableEq, Repr

structure Frame where
  fin : Bool
  opcode : UInt8
  payload : List UInt8
deriving DecidableEq, Repr

def Head.payload (h : Head) (buf : List UInt8) : List UInt8 :=
  let raw := (buf.drop h.headerSize).take h.N
  if h.masked then xorKey h.maskKey.byte raw else raw

def Head.frame (h : Head) (buf : List UInt8) : Frame := ⟨h.fin, h.opcode, h.payload buf⟩

def Head.unmask (h : Head) (buf : List UInt8) : List UInt8 :=
  if h.masked then buf.take h.headerSize ++ h.payload buf ++ buf.drop (h.headerSize + h.N)
  else buf

/-- The branches of the `handle frame` chain that call out. -/
def Receiver.handle (r : Receiver) (f : Frame) : List Reaction :=
  if f.opcode = 0x1 ∧ f.fin then if r.onMessage then [.message f.payload] else []
  else if f.opcode = 0x2 ∧ f.fin then if r.onBinary then [.binary f.payload] else []
  else if f.opcode = 0x9 then [.pong f.payload]
  else []

/-- Whether the frame's branch reads or writes the `N` payload bytes. -/
def Receiver.touchesPayload (r : Receiver) (h : Head) : Bool :=
  h.masked || (h.opcode == 0x1 && h.fin) || (h.opcode == 0x2 && h.fin && r.onBinary) ||
    h.opcode == 0x9

/-- One iteration of the loop of `processFrame`. `outside` is an access to a
payload byte that is not in `rxbuf`. -/
inductive Iteration where
  | wait
  | outside
  | close (r : Receiver)
  | next (r : Receiver)
deriving DecidableEq, Repr

def frameStep (r : Receiver) : Iteration :=
  match readHead r.rxbuf with
  | none => .wait
  | some h =>
    let total := sizeT (h.headerSize + h.N)
    if r.rxbuf.length < total then .wait
    else if r.touchesPayload h ∧ r.rxbuf.length < h.headerSize + h.N then .outside
    else if h.opcode = 0x8 then
      .close { r with rxbuf := h.unmask r.rxbuf, state := .closing, running := false }
    else
      .next { r with rxbuf := r.rxbuf.drop total, out := r.out ++ r.handle (h.frame r.rxbuf) }

inductive Outcome where
  | returned (r : Receiver)
  | outside
  | spinning
deriving DecidableEq, Repr

/-- The loop of `processFrame`, for at most `fuel` tests of its condition. -/
def processLoop : Nat → Receiver → Outcome
  | 0, _ => .spinning
  | fuel + 1, r =>
    if r.rxbuf.isEmpty then .returned r
    else
      match frameStep r with
      | .wait => .returned r
      | .outside => .outside
      | .close r' => .returned r'
      | .next r' => processLoop fuel r'

/-- Within this budget the loop ends or never does: `processLoop_budget`. -/
def processFrame (r : Receiver) : Outcome := processLoop (r.rxbuf.length + 1) r

end ModAudioStream
