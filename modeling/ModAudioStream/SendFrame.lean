import ModAudioStream.WsClient

namespace ModAudioStream

/-- The length field of a frame header, with the mask bit set. -/
def lengthBytes (len : Nat) : List UInt8 :=
  if len < 126 then [0x80 ||| UInt8.ofNat len]
  else if len < 65536 then (0x80 ||| 126) :: beBytes 2 len
  else (0x80 ||| 127) :: beBytes 8 len

def encodeFrame (opcode : UInt8) (mask : MaskKey) (payload : List UInt8) : List UInt8 :=
  (0x80 ||| opcode) :: (lengthBytes payload.length ++ (mask.bytes ++ xorKey mask.byte payload))

def headerLength (len : Nat) : Nat :=
  if len < 126 then 6 else if len < 65536 then 8 else 14

theorem lengthBytes_length (len : Nat) : (lengthBytes len).length + 5 = headerLength len := by
  unfold lengthBytes headerLength
  split
  · rfl
  · split
    · simp [beBytes_length]
    · simp [beBytes_length]

theorem encodeFrame_length (opcode : UInt8) (mask : MaskKey) (payload : List UInt8) :
    (encodeFrame opcode mask payload).length = headerLength payload.length + payload.length := by
  have hl := lengthBytes_length payload.length
  simp only [encodeFrame, List.length_cons, List.length_append, MaskKey.bytes_length,
    xorKey_length]
  omega

theorem encodeFrame_length_pos (opcode : UInt8) (mask : MaskKey) (payload : List UInt8) :
    0 < (encodeFrame opcode mask payload).length := by
  simp [encodeFrame]

inductive WriteResult where
  | wrote (n : Nat)
  | again
  | error
deriving DecidableEq, Repr

/-- One write call of `sendFrame`: which call of `sendFrame` made it, its frame,
the offset it wrote from and how many bytes the socket took (0 when it failed). -/
structure Write where
  call : Nat
  frame : List UInt8
  offset : Nat
  taken : Nat
deriving DecidableEq, Repr

def Write.bytes (wr : Write) : List UInt8 := (wr.frame.drop wr.offset).take wr.taken

/-- The sending side of the connection: the answers the socket is going to give,
the masks the generator is going to draw, the number of `sendFrame` calls and
every write so far. -/
structure Wire where
  sockfd : Int
  results : Nat → WriteResult
  masks : Nat → MaskKey
  calls : Nat
  log : List Write

namespace Wire

def record (w : Wire) (frame : List UInt8) (offset taken : Nat) : Wire :=
  { w with log := w.log ++ [⟨w.calls, frame, offset, taken⟩] }

def answer (w : Wire) : WriteResult := w.results w.log.length

end Wire

/-- The write loop of `sendFrame`. The socket never takes more bytes than it is
offered; every answer but a positive count ends the loop. -/
def writeLoop (frame : List UInt8) (offset : Nat) (w : Wire) : Nat × Wire :=
  if offset < frame.length then
    match w.answer with
    | .wrote n =>
      let taken := min n (frame.length - offset)
      if 0 < taken then writeLoop frame (offset + taken) (w.record frame offset taken)
      else (offset, w.record frame offset 0)
    | .again => (offset, w.record frame offset 0)
    | .error => (offset, w.record frame offset 0)
  else (offset, w)
termination_by frame.length - offset

def sendFrame (opcode : UInt8) (payload : List UInt8) (w : Wire) : Bool × Wire :=
  if w.sockfd < 0 then (false, w)
  else
    let frame := encodeFrame opcode (w.masks w.calls) payload
    let (offset, w') := writeLoop frame 0 { w with calls := w.calls + 1 }
    (offset == frame.length, w')

end ModAudioStream
