import ModAudioStream.BitGroups
import ModAudioStream.JsonAudio

namespace ModAudioStream

/-- The word of a turn of the loop in `randomBase64`. -/
def roundWord (buf : List UInt8) (i : Nat) : Nat :=
  let n := (buf.getD i 0).toNat <<< 16
  let n := if i + 1 < buf.length then n ||| (buf.getD (i + 1) 0).toNat <<< 8 else n
  if i + 2 < buf.length then n ||| (buf.getD (i + 2) 0).toNat else n

def encodeRound (buf : List UInt8) (i : Nat) : List UInt8 :=
  let n := roundWord buf i
  [b64 n 18, b64 n 12] ++
    if i + 1 < buf.length then
      [b64 n 6, if i + 2 < buf.length then b64 n 0 else 0x3D]
    else
      [0x3D, 0x3D]

/-- The loop of `randomBase64` from its index `i` on. -/
def encodeFrom (buf : List UInt8) (i : Nat) : List UInt8 :=
  if i < buf.length then encodeRound buf i ++ encodeFrom buf (i + 3) else []
termination_by buf.length - i

/-- The base 64 alphabet of RFC 4648. -/
def base64Char (value : Nat) : UInt8 :=
  if value < 26 then UInt8.ofNat (0x41 + value)
  else if value < 52 then UInt8.ofNat (0x61 + (value - 26))
  else if value < 62 then UInt8.ofNat (0x30 + (value - 52))
  else if value = 62 then 0x2B
  else 0x2F

/-- One character for six bits, zero bits added to the last of them. -/
def base64Chars (bytes : List UInt8) : List UInt8 :=
  (groups 6 (bytes.flatMap fun b => bitsOf 8 b.toNat)).map base64Char

/-- The encoding of RFC 4648, with `=` up to a multiple of four characters. -/
def base64Text (bytes : List UInt8) : List UInt8 :=
  base64Chars bytes ++ List.replicate ((4 - (base64Chars bytes).length % 4) % 4) 0x3D

theorem base64Alphabet_getD : ∀ value < 64, base64Alphabet.getD value 0 = base64Char value := by
  decide +kernel

theorem b64_eq_char (n k : Nat) : b64 n k = base64Char (n / 2 ^ k % 64) :=
  base64Alphabet_getD _ (Nat.mod_lt _ (by omega))

theorem or_high (b₀ b₁ : UInt8) :
    b₀.toNat <<< 16 ||| b₁.toNat <<< 8 = b₀.toNat * 2 ^ 16 + b₁.toNat * 2 ^ 8 := by
  have hb₁ := b₁.toNat_lt
  have hlt : b₁.toNat <<< 8 < 2 ^ 16 := by
    rw [Nat.shiftLeft_eq]
    omega
  rw [← Nat.shiftLeft_add_eq_or_of_lt hlt, Nat.shiftLeft_eq, Nat.shiftLeft_eq]

theorem or_low (b₀ b₁ b₂ : UInt8) :
    b₀.toNat <<< 16 ||| b₁.toNat <<< 8 ||| b₂.toNat =
      b₀.toNat * 2 ^ 16 + b₁.toNat * 2 ^ 8 + b₂.toNat := by
  have hfactor : b₀.toNat * 2 ^ 16 + b₁.toNat * 2 ^ 8 = (b₀.toNat * 2 ^ 8 + b₁.toNat) <<< 8 := by
    rw [Nat.shiftLeft_eq]
    omega
  rw [or_high, hfactor, ← Nat.shiftLeft_add_eq_or_of_lt b₂.toNat_lt]

theorem encodeRound_drop (buf : List UInt8) (i : Nat) :
    encodeRound buf i = encodeRound (buf.drop i) 0 := by
  have hget (j : Nat) : buf.getD (i + j) 0 = (buf.drop i).getD j 0 := by
    rw [List.getD_eq_getElem?_getD, List.getD_eq_getElem?_getD, List.getElem?_drop]
  have hlt (j : Nat) : (i + j < buf.length) = (0 + j < (buf.drop i).length) := by
    rw [List.length_drop]
    apply propext
    omega
  have hhead : buf.getD i 0 = (buf.drop i).getD 0 0 := hget 0
  have hword : roundWord buf i = roundWord (buf.drop i) 0 := by
    simp only [roundWord, hlt, hget, hhead, Nat.zero_add]
  simp only [encodeRound, hword, hlt]

/-- The indexed loop does group for group what the loop over the bytes that are left does. -/
theorem encodeFrom_drop (buf : List UInt8) (i : Nat) :
    encodeFrom buf i = base64Loop (buf.drop i) := by
  induction i using encodeFrom.induct buf with
  | case1 i hlt ih =>
    have hnext : buf.drop (i + 3) = (buf.drop i).drop 3 := by rw [List.drop_drop]
    rw [encodeFrom, if_pos hlt, ih, hnext, encodeRound_drop]
    match hleft : buf.drop i with
    | [] =>
      have hlen : (buf.drop i).length = 0 := by rw [hleft]; rfl
      rw [List.length_drop] at hlen
      omega
    | [b₀] =>
      simp [encodeRound, roundWord, base64Loop, Nat.shiftLeft_eq]
    | [b₀, b₁] =>
      simp [encodeRound, roundWord, base64Loop, or_high]
    | b₀ :: b₁ :: b₂ :: rest =>
      simp [encodeRound, roundWord, base64Loop, or_low]
  | case2 i hge =>
    rw [encodeFrom, if_neg hge, List.drop_eq_nil_of_le (by omega), base64Loop]

theorem encodeFrom_zero (buf : List UInt8) : encodeFrom buf 0 = base64Loop buf :=
  encodeFrom_drop buf 0

theorem bits_two (b₀ b₁ : UInt8) :
    bitsOf 8 b₀.toNat ++ bitsOf 8 b₁.toNat = bitsOf 16 (2 ^ 8 * b₀.toNat + b₁.toNat) :=
  bitsOf_append 8 _ b₁.toNat_lt

theorem bits_three (b₀ b₁ b₂ : UInt8) :
    bitsOf 8 b₀.toNat ++ bitsOf 8 b₁.toNat ++ bitsOf 8 b₂.toNat =
      bitsOf 24 (2 ^ 8 * (2 ^ 8 * b₀.toNat + b₁.toNat) + b₂.toNat) := by
  rw [bits_two, bitsOf_append 16 _ b₂.toNat_lt]

theorem base64Chars_three (b₀ b₁ b₂ : UInt8) (buf : List UInt8) :
    base64Chars (b₀ :: b₁ :: b₂ :: buf) =
      let n := b₀.toNat * 2 ^ 16 + b₁.toNat * 2 ^ 8 + b₂.toNat
      [b64 n 18, b64 n 12, b64 n 6, b64 n 0] ++ base64Chars buf := by
  have hword : 2 ^ 8 * (2 ^ 8 * b₀.toNat + b₁.toNat) + b₂.toNat =
      b₀.toNat * 2 ^ 16 + b₁.toNat * 2 ^ 8 + b₂.toNat := by omega
  have hlen (n : Nat) : (bitsOf 24 n).length = 6 * 4 := bitsOf_length 24 n
  simp only [base64Chars, List.flatMap_cons]
  rw [← List.append_assoc, ← List.append_assoc, bits_three, hword,
    groups_append (by omega) (hlen _), groupsOf_bitsOf 6 4, List.map_append]
  simp only [b64_eq_char]
  rfl

theorem base64Chars_two (b₀ b₁ : UInt8) :
    base64Chars [b₀, b₁] =
      let n := b₀.toNat * 2 ^ 16 + b₁.toNat * 2 ^ 8
      [b64 n 18, b64 n 12, b64 n 6] := by
  have hbits : [b₀, b₁].flatMap (fun b => bitsOf 8 b.toNat) =
      bitsOf 16 (2 ^ 8 * b₀.toNat + b₁.toNat) := by
    rw [← bits_two]
    simp
  have hgroups : groups 6 (bitsOf 16 (2 ^ 8 * b₀.toNat + b₁.toNat)) =
      [(b₀.toNat * 2 ^ 16 + b₁.toNat * 2 ^ 8) / 2 ^ 18 % 64,
        (b₀.toNat * 2 ^ 16 + b₁.toNat * 2 ^ 8) / 2 ^ 12 % 64,
        (b₀.toNat * 2 ^ 16 + b₁.toNat * 2 ^ 8) / 2 ^ 6 % 64] := by
    have h₀ : 2 ^ 2 * (2 ^ 8 * b₀.toNat + b₁.toNat) / 2 ^ (6 * 2) % 2 ^ 6 =
        (b₀.toNat * 2 ^ 16 + b₁.toNat * 2 ^ 8) / 2 ^ 18 % 64 := by omega
    have h₁ : 2 ^ 2 * (2 ^ 8 * b₀.toNat + b₁.toNat) / 2 ^ (6 * 1) % 2 ^ 6 =
        (b₀.toNat * 2 ^ 16 + b₁.toNat * 2 ^ 8) / 2 ^ 12 % 64 := by omega
    have h₂ : 2 ^ 2 * (2 ^ 8 * b₀.toNat + b₁.toNat) / 2 ^ (6 * 0) % 2 ^ 6 =
        (b₀.toNat * 2 ^ 16 + b₁.toNat * 2 ^ 8) / 2 ^ 6 % 64 := by omega
    rw [@groups_bitsOf 6 16 3 2 (by omega) (by omega), ← h₀, ← h₁, ← h₂]
    rfl
  rw [base64Chars, hbits, hgroups]
  simp only [b64_eq_char]
  rfl

theorem base64Chars_one (b₀ : UInt8) :
    base64Chars [b₀] =
      let n := b₀.toNat * 2 ^ 16
      [b64 n 18, b64 n 12] := by
  have hgroups : groups 6 (bitsOf 8 b₀.toNat) =
      [b₀.toNat * 2 ^ 16 / 2 ^ 18 % 64, b₀.toNat * 2 ^ 16 / 2 ^ 12 % 64] := by
    have h₀ : 2 ^ 4 * b₀.toNat / 2 ^ (6 * 1) % 2 ^ 6 = b₀.toNat * 2 ^ 16 / 2 ^ 18 % 64 := by
      omega
    have h₁ : 2 ^ 4 * b₀.toNat / 2 ^ (6 * 0) % 2 ^ 6 = b₀.toNat * 2 ^ 16 / 2 ^ 12 % 64 := by
      omega
    rw [@groups_bitsOf 6 8 2 4 (by omega) (by omega), ← h₀, ← h₁]
    rfl
  rw [base64Chars, List.flatMap_singleton, hgroups]
  simp only [b64_eq_char]
  rfl

theorem base64Loop_text (buf : List UInt8) : base64Loop buf = base64Text buf := by
  induction buf using base64Loop.induct with
  | case1 b₀ b₁ b₂ buf ih =>
    have hlen (n : Nat) (chars : List UInt8) :
        ([b64 n 18, b64 n 12, b64 n 6, b64 n 0] ++ chars).length % 4 = chars.length % 4 := by
      rw [List.length_append, Nat.add_comm]
      exact Nat.add_mod_right _ 4
    rw [base64Loop, ih, base64Text, base64Text, base64Chars_three, hlen, List.append_assoc]
    rfl
  | case2 b₀ b₁ => rw [base64Loop, base64Text, base64Chars_two]; rfl
  | case3 b₀ => rw [base64Loop, base64Text, base64Chars_one]; rfl
  | case4 => rfl

theorem b64_stands {n k value : Nat} (h : n / 2 ^ k % 64 = value) : Stands value (b64 n k) := by
  rw [← h]
  exact Or.inl rfl

theorem pads_padding (lacking : Nat) : Padding lacking (List.replicate lacking 0x3D) := by
  refine Or.inr ⟨List.length_replicate, ?_⟩
  intro c hc
  rw [List.eq_of_mem_replicate hc]
  rfl

theorem base64Loop_base64Of (buf : List UInt8) : Base64Of buf (base64Loop buf) := by
  induction buf using base64Loop.induct with
  | case1 b₀ b₁ b₂ buf ih =>
    have hb₁ := b₁.toNat_lt
    have hb₂ := b₂.toNat_lt
    have hb₀ := b₀.toNat_lt
    exact .three b₀ b₁ b₂ (b64_stands (by omega)) (b64_stands (by omega))
      (b64_stands (by omega)) (b64_stands (by omega)) ih
  | case2 b₀ b₁ =>
    have hb₀ := b₀.toNat_lt
    have hb₁ := b₁.toNat_lt
    exact .two b₀ b₁ (b64_stands (by omega)) (b64_stands (by omega)) (b64_stands (by omega))
      (pads_padding 1)
  | case3 b₀ =>
    have hb₀ := b₀.toNat_lt
    exact .one b₀ (b64_stands (by omega)) (b64_stands (by omega)) (pads_padding 2)
  | case4 => exact .nil

theorem encodeFrom_full {buf : List UInt8} {i : Nat} (h : i + 2 < buf.length) :
    encodeFrom buf i = digestRound buf i ++ encodeFrom buf (i + 3) := by
  have hword : roundWord buf i = (buf.getD i 0).toNat * 2 ^ 16 +
      (buf.getD (i + 1) 0).toNat * 2 ^ 8 + (buf.getD (i + 2) 0).toNat := by
    rw [roundWord, if_pos h, if_pos (by omega), or_low]
  have hround : encodeRound buf i = digestRound buf i := by
    rw [encodeRound, if_pos h, if_pos (by omega), hword]
    rfl
  rw [encodeFrom, if_pos (by omega), hround]

theorem encodeFrom_last {buf : List UInt8} {i : Nat} (h : i + 2 = buf.length) :
    encodeFrom buf i =
      let n := (buf.getD i 0).toNat * 2 ^ 16 + (buf.getD (i + 1) 0).toNat * 2 ^ 8
      [b64 n 18, b64 n 12, b64 n 6, 0x3D] := by
  have hword : roundWord buf i =
      (buf.getD i 0).toNat * 2 ^ 16 + (buf.getD (i + 1) 0).toNat * 2 ^ 8 := by
    rw [roundWord, if_neg (by omega), if_pos (by omega), or_high]
  have hend : encodeFrom buf (i + 3) = [] := by rw [encodeFrom, if_neg (by omega)]
  rw [encodeFrom, if_pos (by omega), hend, encodeRound, if_pos (by omega), if_neg (by omega),
    hword]
  rfl

/-- The unrolled encoder is the loop on a digest: six full rounds and a last one of two bytes. -/
theorem digestText_eq (digest : Digest) : digestText digest = encodeFrom digest.bytes 0 := by
  have hlen := digest.length_eq
  rw [encodeFrom_full (by omega), encodeFrom_full (by omega), encodeFrom_full (by omega),
    encodeFrom_full (by omega), encodeFrom_full (by omega), encodeFrom_full (by omega),
    encodeFrom_last (by omega), digestText]
  simp [List.append_assoc]

/-- Both encoders of the client give the text of RFC 4648, which decodes to what was encoded. -/
theorem client_encoders_rfc4648 :
    (∀ buf : List UInt8, encodeFrom buf 0 = base64Text buf ∧
      base64Decode (encodeFrom buf 0) = .ok buf) ∧
    ∀ digest : Digest, digestText digest = encodeFrom digest.bytes 0 := by
  refine ⟨?_, digestText_eq⟩
  intro buf
  rw [encodeFrom_zero]
  constructor
  · exact base64Loop_text buf
  · exact base64Decode_base64Of (base64Loop_base64Of buf)

end ModAudioStream
