import ModAudioStream.CStrings

namespace ModAudioStream

def base64Alphabet : List UInt8 :=
  ascii "ABCDEFGHIJKLMNOPQRSTUVWXYZabcdefghijklmnopqrstuvwxyz0123456789+/"

/-- `b64[(n >> k) & 0x3F]`. -/
def b64 (n k : Nat) : UInt8 := base64Alphabet.getD (n / 2 ^ k % 64) 0

/-- The loop of `randomBase64`, over the bytes that are left. -/
def base64Loop : List UInt8 → List UInt8
  | b₀ :: b₁ :: b₂ :: buf =>
    let n := b₀.toNat * 2 ^ 16 + b₁.toNat * 2 ^ 8 + b₂.toNat
    b64 n 18 :: b64 n 12 :: b64 n 6 :: b64 n 0 :: base64Loop buf
  | [b₀, b₁] =>
    let n := b₀.toNat * 2 ^ 16 + b₁.toNat * 2 ^ 8
    [b64 n 18, b64 n 12, b64 n 6, 0x3D]
  | [b₀] =>
    let n := b₀.toNat * 2 ^ 16
    [b64 n 18, b64 n 12, 0x3D, 0x3D]
  | [] => []

/-- What SHA-1 gives. -/
structure Digest where
  bytes : List UInt8
  length_eq : bytes.length = 20

/-- The four characters of one round of the loop in `sha1_and_base64`. -/
def digestRound (digest : List UInt8) (i : Nat) : List UInt8 :=
  let n := (digest.getD i 0).toNat * 2 ^ 16 + (digest.getD (i + 1) 0).toNat * 2 ^ 8 +
    (digest.getD (i + 2) 0).toNat
  [b64 n 18, b64 n 12, b64 n 6, b64 n 0]

/-- `sha1_and_base64`, after the hash. -/
def digestText (digest : Digest) : List UInt8 :=
  let n := (digest.bytes.getD 18 0).toNat * 2 ^ 16 + (digest.bytes.getD 19 0).toNat * 2 ^ 8
  [0, 3, 6, 9, 12, 15].flatMap (digestRound digest.bytes) ++
    [b64 n 18, b64 n 12, b64 n 6, 0x3D]

def isBase64 (c : UInt8) : Bool := isAlnum c || c == 0x2B || c == 0x2F || c == 0x3D

theorem isBase64_alphabet : ∀ c ∈ base64Alphabet, isBase64 c = true :=
  List.all_eq_true.mp (by decide)

theorem base64Alphabet_length : base64Alphabet.length = 64 := rfl

theorem isBase64_b64 (n k : Nat) : isBase64 (b64 n k) = true := by
  have hlt : n / 2 ^ k % 64 < base64Alphabet.length := by
    rw [base64Alphabet_length]
    exact Nat.mod_lt _ (by omega)
  rw [b64, List.getD_eq_getElem?_getD, List.getElem?_eq_getElem hlt, Option.getD_some]
  exact isBase64_alphabet _ (List.getElem_mem hlt)

theorem base64Loop_chars (buf : List UInt8) : ∀ c ∈ base64Loop buf, isBase64 c = true := by
  induction buf using base64Loop.induct with
  | case1 b₀ b₁ b₂ buf ih =>
    simp only [base64Loop, List.mem_cons]
    rintro c (rfl | rfl | rfl | rfl | hc)
    · exact isBase64_b64 _ _
    · exact isBase64_b64 _ _
    · exact isBase64_b64 _ _
    · exact isBase64_b64 _ _
    · exact ih c hc
  | case2 b₀ b₁ =>
    simp only [base64Loop, List.mem_cons, List.not_mem_nil, or_false]
    rintro c (rfl | rfl | rfl | rfl)
    · exact isBase64_b64 _ _
    · exact isBase64_b64 _ _
    · exact isBase64_b64 _ _
    · rfl
  | case3 b₀ =>
    simp only [base64Loop, List.mem_cons, List.not_mem_nil, or_false]
    rintro c (rfl | rfl | rfl | rfl)
    · exact isBase64_b64 _ _
    · exact isBase64_b64 _ _
    · rfl
    · rfl
  | case4 =>
    intro c hc
    cases hc

theorem digestText_length (digest : Digest) : (digestText digest).length = 28 := by
  simp [digestText, digestRound]

end ModAudioStream
