import ModAudioStream.ByteWords

namespace ModAudioStream

/-- `WebSocketClient::State`; `OPEN` is `opened`, since `open` is a Lean keyword. -/
inductive State where
  | disconnected
  | connecting
  | opened
  | closing
  | closed
deriving DecidableEq, Repr

structure SendItem where
  data : List UInt8
  isBinary : Bool
deriving DecidableEq, Repr

def maxSendQueue : Nat := 1024

/-- The value of a `size_t` expression: arithmetic is modulo `2 ^ 64`. -/
def sizeT (n : Nat) : Nat := n % 2 ^ 64

theorem sizeT_of_lt {n : Nat} (h : n < 2 ^ 64) : sizeT n = n := Nat.mod_eq_of_lt h

structure MaskKey where
  b0 : UInt8
  b1 : UInt8
  b2 : UInt8
  b3 : UInt8
deriving DecidableEq, Repr

namespace MaskKey

def byte (k : MaskKey) (i : Nat) : UInt8 :=
  match i &&& 0x3 with
  | 0 => k.b0
  | 1 => k.b1
  | 2 => k.b2
  | _ => k.b3

def bytes (k : MaskKey) : List UInt8 := [k.b0, k.b1, k.b2, k.b3]

@[simp] theorem bytes_length (k : MaskKey) : k.bytes.length = 4 := rfl

end MaskKey

end ModAudioStream
