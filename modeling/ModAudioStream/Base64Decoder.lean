import ModAudioStream.Base64Encoders
import ModAudioStream.ByteWords

namespace ModAudioStream

/-- A line length, which is not zero. -/
structure LineLength where
  value : Nat
  pos : 0 < value

/-- A text in lines of `n` characters, the last one no longer. -/
def linesOf (n : LineLength) (text : List UInt8) : List (List UInt8) :=
  if n.value < text.length then text.take n.value :: linesOf n (text.drop n.value) else [text]
termination_by text.length
decreasing_by
  have hpos := n.pos
  rw [List.length_drop]
  omega

theorem linesOf_long {n : LineLength} {text : List UInt8} (h : n.value < text.length) :
    linesOf n text = text.take n.value :: linesOf n (text.drop n.value) := by
  rw [linesOf, if_pos h]

theorem linesOf_short {n : LineLength} {text : List UInt8} (h : ¬n.value < text.length) :
    linesOf n text = [text] := by
  rw [linesOf, if_neg h]

theorem linesOf_ne_nil (n : LineLength) (text : List UInt8) : linesOf n text ≠ [] := by
  by_cases h : n.value < text.length
  · rw [linesOf_long h]
    exact List.cons_ne_nil _ _
  · rw [linesOf_short h]
    exact List.cons_ne_nil _ _

/-- A character of one of the two alphabets. -/
def isValue (c : UInt8) : Bool := base64Alphabet.contains c || base64UrlAlphabet.contains c

def charValue (c : UInt8) : Nat :=
  if base64Alphabet.contains c then base64Alphabet.idxOf c else base64UrlAlphabet.idxOf c

/-- What may stand at an index of a text: the last two characters of a quantum may pad it, and
after padding the last one is not looked at. -/
def Fits (text : List UInt8) (i : Nat) : Prop :=
  isValue (text.getD i 0) = true ∨ (2 ≤ i % 4 ∧ isPadding (text.getD i 0) = true) ∨
    (i % 4 = 3 ∧ isPadding (text.getD (i - 1) 0) = true)

/-- The bytes that bits make up, without the bits that are left over. -/
def wholeBytes (bits : List Bool) : List UInt8 :=
  (groupsOf 8 (bits.length / 8) bits).map UInt8.ofNat

/-- The bytes of a quantum of the encoding: those of the characters before the padding. -/
def quantumBytes (chars : List UInt8) : List UInt8 :=
  wholeBytes ((chars.takeWhile (!isPadding ·)).flatMap fun c => bitsOf 6 (charValue c))

def quantum : LineLength := ⟨4, Nat.succ_pos 3⟩

/-- The bytes that a text stands for, by its quanta of four characters. -/
def base64Bytes (text : List UInt8) : List UInt8 := (linesOf quantum text).flatMap quantumBytes

theorem getD_idxOf {set : List UInt8} {c : UInt8} (h : set.contains c = true) :
    set.idxOf c < set.length ∧ set.getD (set.idxOf c) 0 = c := by
  have hlt := List.idxOf_lt_length_iff.mpr (List.contains_iff_mem.mp h)
  refine ⟨hlt, ?_⟩
  rw [List.getD_eq_getElem?_getD, List.getElem?_eq_getElem hlt, Option.getD_some,
    List.getElem_idxOf hlt]

theorem charValue_stands {c : UInt8} (h : isValue c = true) :
    charValue c < 64 ∧ Stands (charValue c) c := by
  unfold charValue
  split
  next hplain =>
    obtain ⟨hlt, hget⟩ := getD_idxOf hplain
    exact ⟨hlt, Or.inl hget.symm⟩
  next hother =>
    obtain ⟨hlt, hget⟩ := getD_idxOf ((Bool.or_eq_true_iff.mp h).resolve_left hother)
    exact ⟨hlt, Or.inr hget.symm⟩

theorem posOfChar_value (c : UInt8) (h : isValue c = true) :
    posOfChar c = .ok (charValue c) ∧ charValue c < 64 ∧ isPadding c = false := by
  obtain ⟨hlt, hstands⟩ := charValue_stands h
  exact ⟨(hstands.pos hlt).1, hlt, (hstands.pos hlt).2⟩

/-- `pos_of_char` finds no position outside the alphabets. -/
theorem posOfChar_found (c : UInt8) : posOfChar c = .error .invalid ∨
    ∃ value < 64, base64Alphabet.getD value 0 = c ∨ base64UrlAlphabet.getD value 0 = c := by
  have all := @uint8_all (fun c => (match posOfChar c with
    | .error e => e == .invalid
    | .ok value => decide (value < 64) &&
      (base64Alphabet.getD value 0 == c || base64UrlAlphabet.getD value 0 == c)) = true)
    (by decide +kernel) c
  split at all
  next e hpos => exact Or.inl (hpos.trans (congrArg Except.error (beq_iff_eq.mp all)))
  next value hpos =>
    rw [Bool.and_eq_true, decide_eq_true_iff, Bool.or_eq_true, beq_iff_eq, beq_iff_eq] at all
    exact Or.inr ⟨value, all⟩

theorem getD_mem {set : List UInt8} {i : Nat} (h : i < set.length) : set.getD i 0 ∈ set := by
  rw [List.getD_eq_getElem?_getD, List.getElem?_eq_getElem h]
  exact List.getElem_mem h

theorem posOfChar_other (c : UInt8) (h : isValue c = false) : posOfChar c = .error .invalid := by
  refine (posOfChar_found c).resolve_right ?_
  rintro ⟨value, hlt, hget⟩
  have hvalue : isValue c = true := by
    rw [isValue, Bool.or_eq_true, List.contains_iff_mem, List.contains_iff_mem]
    rcases hget with rfl | rfl
    · exact Or.inl (getD_mem hlt)
    · exact Or.inr (getD_mem hlt)
  rw [h] at hvalue
  cases hvalue

/-- The whole bytes at the head of a number's bits are its leading digits in base 256. -/
theorem wholeBytes_bitsOf {m k r : Nat} (hr : r < 8) (hm : m = 8 * k + r) (n : Nat) :
    wholeBytes (bitsOf m n) =
      (List.range k).reverse.map fun i => UInt8.ofNat (n / 2 ^ r / 2 ^ (8 * i)) := by
  have hcount : (8 * k + r) / 8 = k := by omega
  have hhead : groupsOf 8 k (bitsOf (8 * k) (n / 2 ^ r) ++ bitsOf r n) =
      groupsOf 8 k (bitsOf (8 * k) (n / 2 ^ r)) := by
    have happend := groupsOf_append (bitsOf_length (8 * k) (n / 2 ^ r)) 0 (bitsOf r n)
    rwa [Nat.add_zero, groupsOf, List.append_nil] at happend
  rw [wholeBytes, bitsOf_length, hm, hcount, bitsOf_add, hhead, groupsOf_bitsOf, List.map_map]
  refine List.map_congr_left fun i _ => ?_
  exact UInt8.ofNat_mod_size

theorem takeWhile_value {c : UInt8} (h : isValue c = true) (chars : List UInt8) :
    (c :: chars).takeWhile (!isPadding ·) = c :: chars.takeWhile (!isPadding ·) := by
  rw [List.takeWhile_cons, (posOfChar_value c h).2.2]
  rfl

theorem takeWhile_padding {c : UInt8} (h : isPadding c = true) (chars : List UInt8) :
    (c :: chars).takeWhile (!isPadding ·) = [] := by
  rw [List.takeWhile_cons, h]
  rfl

section

variable {c₀ c₁ c₂ c₃ : UInt8} (h₀ : isValue c₀ = true) (h₁ : isValue c₁ = true)

include h₀ h₁

theorem quantumBytes_two {padding : List UInt8}
    (hp : padding.takeWhile (!isPadding ·) = []) :
    quantumBytes (c₀ :: c₁ :: padding) =
      [UInt8.ofNat (charValue c₀ * 4 + charValue c₁ / 16)] := by
  have hlt₁ := (posOfChar_value c₁ h₁).2.1
  have hbyte : (2 ^ 6 * charValue c₀ + charValue c₁) / 2 ^ 4 / 2 ^ (8 * 0) =
      charValue c₀ * 4 + charValue c₁ / 16 := by omega
  rw [quantumBytes, takeWhile_value h₀, takeWhile_value h₁, hp, ← hbyte]
  simp only [List.flatMap_cons, List.flatMap_nil, List.append_nil]
  rw [bitsOf_append 6 _ (by omega), @wholeBytes_bitsOf _ 1 4 (by omega) (by omega)]
  rfl

theorem quantumBytes_three (h₂ : isValue c₂ = true) {padding : List UInt8}
    (hp : padding.takeWhile (!isPadding ·) = []) :
    quantumBytes (c₀ :: c₁ :: c₂ :: padding) =
      [UInt8.ofNat (charValue c₀ * 4 + charValue c₁ / 16),
        UInt8.ofNat (charValue c₁ % 16 * 16 + charValue c₂ / 4)] := by
  have hlt₁ := (posOfChar_value c₁ h₁).2.1
  have hlt₂ := (posOfChar_value c₂ h₂).2.1
  have hfirst : (2 ^ 12 * charValue c₀ + (2 ^ 6 * charValue c₁ + charValue c₂)) / 2 ^ 2 /
      2 ^ (8 * 1) = charValue c₀ * 4 + charValue c₁ / 16 := by omega
  have hsecond : UInt8.ofNat ((2 ^ 12 * charValue c₀ + (2 ^ 6 * charValue c₁ + charValue c₂)) /
      2 ^ 2 / 2 ^ (8 * 0)) = UInt8.ofNat (charValue c₁ % 16 * 16 + charValue c₂ / 4) := by
    rw [← UInt8.ofNat_mod_size]
    exact congrArg UInt8.ofNat (by omega)
  rw [quantumBytes, takeWhile_value h₀, takeWhile_value h₁, takeWhile_value h₂, hp, ← hfirst,
    ← hsecond]
  simp only [List.flatMap_cons, List.flatMap_nil, List.append_nil]
  rw [bitsOf_append 6 (charValue c₁) (by omega), bitsOf_append 6 (charValue c₀) (by omega),
    @wholeBytes_bitsOf _ 2 2 (by omega) (by omega)]
  rfl

theorem quantumBytes_four (h₂ : isValue c₂ = true) (h₃ : isValue c₃ = true) :
    quantumBytes [c₀, c₁, c₂, c₃] =
      [UInt8.ofNat (charValue c₀ * 4 + charValue c₁ / 16),
        UInt8.ofNat (charValue c₁ % 16 * 16 + charValue c₂ / 4),
        UInt8.ofNat (charValue c₂ % 4 * 64 + charValue c₃)] := by
  have hlt₁ := (posOfChar_value c₁ h₁).2.1
  have hlt₂ := (posOfChar_value c₂ h₂).2.1
  have hlt₃ := (posOfChar_value c₃ h₃).2.1
  have hfirst : (2 ^ 18 * charValue c₀ + (2 ^ 12 * charValue c₁ + (2 ^ 6 * charValue c₂ +
      charValue c₃))) / 2 ^ 0 / 2 ^ (8 * 2) = charValue c₀ * 4 + charValue c₁ / 16 := by omega
  have hsecond : UInt8.ofNat ((2 ^ 18 * charValue c₀ + (2 ^ 12 * charValue c₁ +
      (2 ^ 6 * charValue c₂ + charValue c₃))) / 2 ^ 0 / 2 ^ (8 * 1)) =
      UInt8.ofNat (charValue c₁ % 16 * 16 + charValue c₂ / 4) := by
    rw [← UInt8.ofNat_mod_size]
    exact congrArg UInt8.ofNat (by omega)
  have hthird : UInt8.ofNat ((2 ^ 18 * charValue c₀ + (2 ^ 12 * charValue c₁ +
      (2 ^ 6 * charValue c₂ + charValue c₃))) / 2 ^ 0 / 2 ^ (8 * 0)) =
      UInt8.ofNat (charValue c₂ % 4 * 64 + charValue c₃) := by
    rw [← UInt8.ofNat_mod_size]
    exact congrArg UInt8.ofNat (by omega)
  rw [quantumBytes, takeWhile_value h₀, takeWhile_value h₁, takeWhile_value h₂, takeWhile_value h₃,
    ← hfirst, ← hsecond, ← hthird]
  simp only [List.takeWhile_nil, List.flatMap_cons, List.flatMap_nil, List.append_nil]
  rw [bitsOf_append 6 (charValue c₂) (by omega), bitsOf_append 6 (charValue c₁) (by omega),
    bitsOf_append 6 (charValue c₀) (by omega), @wholeBytes_bitsOf _ 3 0 (by omega) (by omega)]
  rfl

end

/-- What the decoder asks of the characters of a chunk. -/
def ChunkFits (c₀ c₁ : UInt8) (c₂ c₃ : Option UInt8) : Prop :=
  isValue c₀ = true ∧ isValue c₁ = true ∧
    (∀ c ∈ c₂, isValue c = true ∨ isPadding c = true) ∧
    ∀ c ∈ c₃, isValue c = true ∨ isPadding c = true ∨ ∀ p ∈ c₂, isPadding p = true

/-- A chunk that fits decodes to its bytes, by whether its last characters are there or padding. -/
theorem decodeChunk_fits {c₀ c₁ : UInt8} {c₂ c₃ : Option UInt8} (h : ChunkFits c₀ c₁ c₂ c₃)
    (hend : c₂ = none → c₃ = none) :
    decodeChunk c₀ c₁ c₂ c₃ = .ok (quantumBytes (c₀ :: c₁ :: (c₂.toList ++ c₃.toList))) := by
  obtain ⟨h₀, h₁, h₂, h₃⟩ := h
  have hpos₀ := (posOfChar_value c₀ h₀).1
  have hpos₁ := (posOfChar_value c₁ h₁).1
  cases c₂ with
  | none =>
    obtain rfl := hend rfl
    rw [decodeChunk_one hpos₀ hpos₁ (by simp)]
    exact congrArg Except.ok (quantumBytes_two h₀ h₁ rfl).symm
  | some c₂ =>
    rcases h₂ c₂ rfl with h₂ | h₂
    · obtain ⟨hpos₂, -, hchar₂⟩ := posOfChar_value c₂ h₂
      cases c₃ with
      | none =>
        rw [decodeChunk_two hpos₀ hpos₁ ⟨hpos₂, hchar₂⟩ (by simp)]
        exact congrArg Except.ok (quantumBytes_three h₀ h₁ h₂ rfl).symm
      | some c₃ =>
        rcases h₃ c₃ rfl with h₃ | h₃ | hpad
        · obtain ⟨hpos₃, -, hchar₃⟩ := posOfChar_value c₃ h₃
          rw [decodeChunk_three hpos₀ hpos₁ ⟨hpos₂, hchar₂⟩ ⟨hpos₃, hchar₃⟩]
          exact congrArg Except.ok (quantumBytes_four h₀ h₁ h₂ h₃).symm
        · rw [decodeChunk_two hpos₀ hpos₁ ⟨hpos₂, hchar₂⟩ (by simpa using h₃)]
          exact congrArg Except.ok
            (quantumBytes_three h₀ h₁ h₂ (takeWhile_padding h₃ [])).symm
        · have hcontra := hpad c₂ rfl
          rw [hchar₂] at hcontra
          cases hcontra
    · rw [decodeChunk_one hpos₀ hpos₁ (by simpa using h₂)]
      exact congrArg Except.ok (quantumBytes_two h₀ h₁ (takeWhile_padding h₂ _)).symm

theorem decodeChunk_other {c₀ c₁ : UInt8} {c₂ c₃ : Option UInt8} (h : ¬ChunkFits c₀ c₁ c₂ c₃) :
    decodeChunk c₀ c₁ c₂ c₃ = .error .invalid := by
  cases h₁ : isValue c₁ with
  | false =>
    unfold decodeChunk
    rw [posOfChar_other c₁ h₁]
    rfl
  | true =>
    have hpos₁ := (posOfChar_value c₁ h₁).1
    cases h₀ : isValue c₀ with
    | false =>
      unfold decodeChunk
      rw [posOfChar_other c₀ h₀, hpos₁]
      rfl
    | true =>
      have hpos₀ := (posOfChar_value c₀ h₀).1
      cases c₂ with
      | none => exact absurd ⟨h₀, h₁, by simp, by simp⟩ h
      | some c₂ =>
        cases hpad₂ : isPadding c₂ with
        | true => exact absurd ⟨h₀, h₁, by simp [hpad₂], by simp [hpad₂]⟩ h
        | false =>
          have hsome₂ : (some c₂).filter (!isPadding ·) = some c₂ := by simp [hpad₂]
          cases h₂ : isValue c₂ with
          | false =>
            unfold decodeChunk
            rw [hpos₀, hpos₁, hsome₂]
            change (posOfChar c₂ >>= _) = _
            rw [posOfChar_other c₂ h₂]
            rfl
          | true =>
            have hpos₂ := (posOfChar_value c₂ h₂).1
            cases c₃ with
            | none => exact absurd ⟨h₀, h₁, by simp [h₂], by simp⟩ h
            | some c₃ =>
              cases h₃ : isValue c₃ || isPadding c₃ with
              | true =>
                rw [Bool.or_eq_true] at h₃
                refine absurd ⟨h₀, h₁, by simp [h₂], ?_⟩ h
                rintro c ⟨⟩
                exact h₃.imp_right Or.inl
              | false =>
                obtain ⟨h₃, hpad₃⟩ := Bool.or_eq_false_iff.mp h₃
                have hsome₃ : (some c₃).filter (!isPadding ·) = some c₃ := by simp [hpad₃]
                unfold decodeChunk
                rw [hpos₀, hpos₁, hsome₂, hsome₃]
                change (posOfChar c₂ >>= _) = _
                rw [hpos₂]
                change (posOfChar c₃ >>= _) = _
                rw [posOfChar_other c₃ h₃]
                rfl

/-- What is asked of the first `n` characters of a text. -/
def FitsUpTo (text : List UInt8) (n : Nat) : Prop := ∀ i < n, Fits text i

theorem fitsUpTo_two (c₀ c₁ : UInt8) (rest : List UInt8) :
    FitsUpTo (c₀ :: c₁ :: rest) 2 ↔ ChunkFits c₀ c₁ none none := by
  constructor
  · intro h
    have h₀ := h 0 (by omega)
    have h₁ := h 1 (by omega)
    simp only [Fits] at h₀ h₁
    exact ⟨by simpa using h₀, by simpa using h₁, by simp, by simp⟩
  · rintro ⟨h₀, h₁, -⟩ i hi
    match i with
    | 0 => exact Or.inl h₀
    | 1 => exact Or.inl h₁
    | i + 2 => omega

theorem fitsUpTo_three (c₀ c₁ c₂ : UInt8) (rest : List UInt8) :
    FitsUpTo (c₀ :: c₁ :: c₂ :: rest) 3 ↔ ChunkFits c₀ c₁ (some c₂) none := by
  constructor
  · intro h
    obtain ⟨h₀, h₁, -⟩ := (fitsUpTo_two c₀ c₁ (c₂ :: rest)).mp fun i hi => h i (by omega)
    have h₂ := h 2 (by omega)
    simp only [Fits] at h₂
    exact ⟨h₀, h₁, by simpa using h₂, by simp⟩
  · rintro ⟨h₀, h₁, h₂, -⟩ i hi
    match i with
    | 0 => exact Or.inl h₀
    | 1 => exact Or.inl h₁
    | 2 => exact (h₂ c₂ rfl).imp_right fun hpad => Or.inl ⟨by omega, hpad⟩
    | i + 3 => omega

theorem fitsUpTo_four (c₀ c₁ c₂ c₃ : UInt8) (rest : List UInt8) :
    FitsUpTo (c₀ :: c₁ :: c₂ :: c₃ :: rest) 4 ↔ ChunkFits c₀ c₁ (some c₂) (some c₃) := by
  constructor
  · intro h
    obtain ⟨h₀, h₁, h₂, -⟩ :=
      (fitsUpTo_three c₀ c₁ c₂ (c₃ :: rest)).mp fun i hi => h i (by omega)
    have h₃ := h 3 (by omega)
    simp only [Fits] at h₃
    exact ⟨h₀, h₁, h₂, by simpa using h₃⟩
  · rintro ⟨h₀, h₁, h₂, h₃⟩ i hi
    match i with
    | 0 => exact Or.inl h₀
    | 1 => exact Or.inl h₁
    | 2 => exact (h₂ c₂ rfl).imp_right fun hpad => Or.inl ⟨by omega, hpad⟩
    | 3 =>
      rcases h₃ c₃ rfl with h₃ | h₃ | h₃
      · exact Or.inl h₃
      · exact Or.inr (Or.inl ⟨by omega, h₃⟩)
      · exact Or.inr (Or.inr ⟨rfl, h₃ c₂ rfl⟩)
    | i + 4 => omega

theorem fits_chunk (c₀ c₁ c₂ c₃ : UInt8) (rest : List UInt8) (i : Nat) :
    Fits (c₀ :: c₁ :: c₂ :: c₃ :: rest) (i + 4) ↔ Fits rest i := by
  have hmod : (i + 4) % 4 = i % 4 := Nat.add_mod_right i 4
  have hchar : (c₀ :: c₁ :: c₂ :: c₃ :: rest).getD (i + 4) 0 = rest.getD i 0 := rfl
  have hprev (h : i % 4 = 3) : (c₀ :: c₁ :: c₂ :: c₃ :: rest).getD (i + 4 - 1) 0 =
      rest.getD (i - 1) 0 := by
    obtain ⟨j, rfl⟩ : ∃ j, i = j + 1 := ⟨i - 1, by omega⟩
    rfl
  unfold Fits
  rw [hmod, hchar]
  refine or_congr_right (or_congr_right (and_congr_right fun h => ?_))
  rw [hprev h]

/-- A chunk and what follows it. -/
theorem fitsUpTo_chunk (c₀ c₁ c₂ c₃ : UInt8) (rest : List UInt8) (n : Nat) :
    FitsUpTo (c₀ :: c₁ :: c₂ :: c₃ :: rest) (n + 4) ↔
      ChunkFits c₀ c₁ (some c₂) (some c₃) ∧ FitsUpTo rest n := by
  rw [← fitsUpTo_four c₀ c₁ c₂ c₃ rest]
  constructor
  · intro h
    exact ⟨fun i hi => h i (by omega),
      fun i hi => (fits_chunk c₀ c₁ c₂ c₃ rest i).mp (h (i + 4) (by omega))⟩
  · rintro ⟨hchunk, hrest⟩ i hi
    by_cases hfirst : i < 4
    · exact hchunk i hfirst
    · obtain ⟨j, rfl⟩ : ∃ j, i = j + 4 := ⟨i - 4, by omega⟩
      exact (fits_chunk c₀ c₁ c₂ c₃ rest j).mpr (hrest j (by omega))

/-- How many characters are looked at before one is missing: a chunk takes two at least. -/
def inChunks (length : Nat) : Nat := if length % 4 = 1 then length - 1 else length

theorem inChunks_chunk (length : Nat) : inChunks (length + 4) = inChunks length + 4 := by
  unfold inChunks
  rw [Nat.add_mod_right]
  split
  next h => omega
  next h => rfl

theorem base64Bytes_last {text : List UInt8} (h : text.length ≤ 4) :
    base64Bytes text = quantumBytes text := by
  rw [base64Bytes, linesOf_short (Nat.not_lt.mpr h), List.flatMap_singleton]

theorem base64Bytes_nil : base64Bytes [] = [] := base64Bytes_last (Nat.zero_le 4)

theorem base64Bytes_chunk (c₀ c₁ c₂ c₃ : UInt8) (rest : List UInt8) :
    base64Bytes (c₀ :: c₁ :: c₂ :: c₃ :: rest) =
      quantumBytes [c₀, c₁, c₂, c₃] ++ base64Bytes rest := by
  cases rest with
  | nil =>
    rw [base64Bytes_nil, List.append_nil]
    exact base64Bytes_last (Nat.le_refl 4)
  | cons c rest =>
    rw [base64Bytes, linesOf_long (by simp [quantum])]
    rfl

/-- What the loop does, by induction on its chunks: the first that does not fit ends it. -/
theorem decodeLoop_spec (size pos : Nat) (text : List UInt8) :
    (FitsUpTo text (inChunks text.length) → decodeLoop size pos text =
      if text.length % 4 = 1 then .error (.outOfRange (pos + text.length) size)
      else .ok (base64Bytes text)) ∧
    (¬FitsUpTo text (inChunks text.length) → decodeLoop size pos text = .error .invalid) := by
  induction pos, text using decodeLoop.induct with
  | case1 pos =>
    refine ⟨fun _ => ?_, fun h => absurd ?_ h⟩
    · rw [base64Bytes_nil]
      rfl
    · intro i hi
      exact absurd hi (Nat.not_lt_zero i)
  | case2 pos c =>
    refine ⟨fun _ => rfl, fun h => absurd ?_ h⟩
    intro i hi
    exact absurd hi (Nat.not_lt_zero i)
  | case3 pos c₀ c₁ =>
    refine ⟨fun h => ?_, fun h => ?_⟩
    · have hchunk := decodeChunk_fits ((fitsUpTo_two c₀ c₁ []).mp h) fun _ => rfl
      rw [decodeLoop, hchunk, if_neg (by simp), base64Bytes_last (by simp)]
      rfl
    · rw [decodeLoop]
      exact decodeChunk_other fun hfits => h ((fitsUpTo_two c₀ c₁ []).mpr hfits)
  | case4 pos c₀ c₁ c₂ =>
    refine ⟨fun h => ?_, fun h => ?_⟩
    · have hchunk := decodeChunk_fits ((fitsUpTo_three c₀ c₁ c₂ []).mp h) fun _ => rfl
      rw [decodeLoop, hchunk, if_neg (by simp), base64Bytes_last (by simp)]
      rfl
    · rw [decodeLoop]
      exact decodeChunk_other fun hfits => h ((fitsUpTo_three c₀ c₁ c₂ []).mpr hfits)
  | case5 pos c₀ c₁ c₂ c₃ rest ih =>
    have hlen : (c₀ :: c₁ :: c₂ :: c₃ :: rest).length = rest.length + 4 := rfl
    rw [hlen, inChunks_chunk, fitsUpTo_chunk, Nat.add_mod_right, decodeLoop]
    by_cases hchunk : ChunkFits c₀ c₁ (some c₂) (some c₃)
    · rw [decodeChunk_fits hchunk fun h => absurd h (Option.some_ne_none c₂)]
      refine ⟨fun h => ?_, fun h => ?_⟩
      · rw [ih.1 h.2, base64Bytes_chunk]
        split
        next hone =>
          have hpos : pos + 4 + rest.length = pos + (rest.length + 4) := by omega
          rw [hpos]
          rfl
        next hne => rfl
      · rw [ih.2 fun hrest => h ⟨hchunk, hrest⟩]
        rfl
    · refine ⟨fun h => absurd h.1 hchunk, fun _ => ?_⟩
      rw [decodeChunk_other hchunk]
      rfl

/-- `base64_decode` accepts a text exactly when no quantum of it is a single character and each
character fits where it stands, and then returns the bytes of the quanta; the two exceptions tell
a text that breaks off from one with a character that does not fit. -/
theorem base64_decode_iff (text : List UInt8) :
    (∀ bytes, base64Decode text = .ok bytes ↔
      text.length % 4 ≠ 1 ∧ (∀ i < text.length, Fits text i) ∧ bytes = base64Bytes text) ∧
    (∀ n size, base64Decode text = .error (.outOfRange n size) ↔
      text.length % 4 = 1 ∧ (∀ i < text.length - 1, Fits text i) ∧ n = text.length ∧
        size = text.length) ∧
    (base64Decode text = .error .invalid ↔ ∃ i < inChunks text.length, ¬Fits text i) := by
  obtain ⟨hfits, hother⟩ := decodeLoop_spec text.length 0 text
  rw [Nat.zero_add] at hfits
  change (_ → base64Decode text = _) at hfits
  change (_ → base64Decode text = _) at hother
  have hexists : (∃ i < inChunks text.length, ¬Fits text i) ↔
      ¬FitsUpTo text (inChunks text.length) := by
    unfold FitsUpTo
    simp
  rw [hexists]
  by_cases hall : FitsUpTo text (inChunks text.length)
  · rw [hfits hall]
    by_cases hone : text.length % 4 = 1
    · rw [if_pos hone]
      rw [inChunks, if_pos hone] at hall
      refine ⟨fun bytes => ⟨nofun, fun h => absurd hone h.1⟩, fun n size => ?_,
        ⟨nofun, fun h => absurd ?_ h⟩⟩
      · constructor
        · rintro ⟨⟩
          exact ⟨hone, hall, rfl, rfl⟩
        · rintro ⟨-, -, rfl, rfl⟩
          rfl
      · rwa [inChunks, if_pos hone]
    · rw [if_neg hone]
      rw [inChunks, if_neg hone] at hall
      refine ⟨fun bytes => ?_, fun n size => ⟨nofun, fun h => absurd h.1 hone⟩,
        ⟨nofun, fun h => absurd ?_ h⟩⟩
      · constructor
        · rintro ⟨⟩
          exact ⟨hone, hall, rfl⟩
        · rintro ⟨-, -, rfl⟩
          rfl
      · rwa [inChunks, if_neg hone]
  · rw [hother hall]
    refine ⟨fun bytes => ⟨nofun, fun h => absurd ?_ hall⟩,
      fun n size => ⟨nofun, fun h => absurd ?_ hall⟩, ⟨fun _ => hall, fun _ => rfl⟩⟩
    · rw [inChunks, if_neg h.1]
      exact h.2.1
    · rw [inChunks, if_pos h.1]
      exact h.2.1

end ModAudioStream
