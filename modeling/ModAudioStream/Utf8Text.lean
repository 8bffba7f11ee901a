import ModAudioStream.CStrings

namespace ModAudioStream

/-- `(c & 0xC0) == 0x80`. -/
def isContinuation (c : UInt8) : Bool := c &&& 0xC0 == 0x80

/-- The code points that two, three and four bytes stand for. -/
def codePoint₂ (c c₁ : UInt8) : Nat := (c &&& 0x1F).toNat <<< 6 ||| (c₁ &&& 0x3F).toNat

def codePoint₃ (c c₁ c₂ : UInt8) : Nat :=
  (c &&& 0x0F).toNat <<< 12 ||| (c₁ &&& 0x3F).toNat <<< 6 ||| (c₂ &&& 0x3F).toNat

def codePoint₄ (c c₁ c₂ c₃ : UInt8) : Nat :=
  (c &&& 0x07).toNat <<< 18 ||| (c₁ &&& 0x3F).toNat <<< 12 ||| (c₂ &&& 0x3F).toNat <<< 6 |||
    (c₃ &&& 0x3F).toNat

/-- `is_valid_utf8`, given the memory from `str` on; `none` when it reads behind the memory. -/
def isValidUtf8 : List UInt8 → Option Bool
  | [] => none
  | c :: str =>
    if c = 0 then some true
    else if c &&& 0x80 = 0x00 then isValidUtf8 str
    else if c &&& 0xE0 = 0xC0 then
      match str with
      | [] => none
      | c₁ :: str =>
        if !isContinuation c₁ then some false
        else if codePoint₂ c c₁ < 0x80 then some false
        else isValidUtf8 str
    else if c &&& 0xF0 = 0xE0 then
      match str with
      | [] => none
      | c₁ :: str =>
        if !isContinuation c₁ then some false
        else
          match str with
          | [] => none
          | c₂ :: str =>
            if !isContinuation c₂ then some false
            else
              let cp := codePoint₃ c c₁ c₂
              if cp < 0x800 ∨ (0xD800 ≤ cp ∧ cp ≤ 0xDFFF) then some false
              else isValidUtf8 str
    else if c &&& 0xF8 = 0xF0 then
      match str with
      | [] => none
      | c₁ :: str =>
        if !isContinuation c₁ then some false
        else
          match str with
          | [] => none
          | c₂ :: str =>
            if !isContinuation c₂ then some false
            else
              match str with
              | [] => none
              | c₃ :: str =>
                if !isContinuation c₃ then some false
                else
                  let cp := codePoint₄ c c₁ c₂ c₃
                  if cp < 0x10000 ∨ 0x10FFFF < cp then some false
                  else isValidUtf8 str
    else some false

/-- A concatenation of UTF-8 encodings of Unicode scalar values. -/
def WellFormedUtf8 (bytes : List UInt8) : Prop :=
  ∃ text : List Char, bytes = text.flatMap String.utf8EncodeChar

/-- The bytes before the first NUL. -/
def cstring (mem : List UInt8) : List UInt8 := mem.takeWhile (· != 0)

theorem single_iff (c : UInt8) : c &&& 0x80 = 0x00 ↔ c.toNat < 0x80 :=
  @uint8_all (fun c => c &&& 0x80 = 0x00 ↔ c.toNat < 0x80) (by decide +kernel) c

theorem lead₂_iff (c : UInt8) : c &&& 0xE0 = 0xC0 ↔ c.toNat / 32 = 6 :=
  @uint8_all (fun c => c &&& 0xE0 = 0xC0 ↔ c.toNat / 32 = 6) (by decide +kernel) c

theorem lead₃_iff (c : UInt8) : c &&& 0xF0 = 0xE0 ↔ c.toNat / 16 = 14 :=
  @uint8_all (fun c => c &&& 0xF0 = 0xE0 ↔ c.toNat / 16 = 14) (by decide +kernel) c

theorem lead₄_iff (c : UInt8) : c &&& 0xF8 = 0xF0 ↔ c.toNat / 8 = 30 :=
  @uint8_all (fun c => c &&& 0xF8 = 0xF0 ↔ c.toNat / 8 = 30) (by decide +kernel) c

theorem isContinuation_iff (c : UInt8) : isContinuation c = true ↔ c.toNat / 64 = 2 :=
  @uint8_all (fun c => isContinuation c = true ↔ c.toNat / 64 = 2) (by decide +kernel) c

theorem shiftLeft_or (a : Nat) {b k : Nat} (h : b < 2 ^ k) : a <<< k ||| b = a * 2 ^ k + b := by
  rw [← Nat.shiftLeft_add_eq_or_of_lt h, Nat.shiftLeft_eq]

theorem continuation_bits (c : UInt8) : (c &&& 0x3F).toNat = c.toNat % 64 :=
  (UInt8.toNat_and c 0x3F).trans (Nat.and_two_pow_sub_one_eq_mod c.toNat 6)

theorem codePoint₂_eq (c c₁ : UInt8) :
    codePoint₂ c c₁ = c.toNat % 32 * 64 + c₁.toNat % 64 := by
  have hc : (c &&& 0x1F).toNat = c.toNat % 32 :=
    (UInt8.toNat_and c 0x1F).trans (Nat.and_two_pow_sub_one_eq_mod c.toNat 5)
  rw [codePoint₂, hc, continuation_bits]
  exact shiftLeft_or _ (by omega)

theorem codePoint₃_eq (c c₁ c₂ : UInt8) :
    codePoint₃ c c₁ c₂ = c.toNat % 16 * 4096 + c₁.toNat % 64 * 64 + c₂.toNat % 64 := by
  have hc : (c &&& 0x0F).toNat = c.toNat % 16 :=
    (UInt8.toNat_and c 0x0F).trans (Nat.and_two_pow_sub_one_eq_mod c.toNat 4)
  rw [codePoint₃, hc, continuation_bits, continuation_bits, Nat.or_assoc,
    shiftLeft_or (c₁.toNat % 64) (by omega), shiftLeft_or (c.toNat % 16) (by omega)]
  omega

theorem codePoint₄_eq (c c₁ c₂ c₃ : UInt8) :
    codePoint₄ c c₁ c₂ c₃ =
      c.toNat % 8 * 262144 + c₁.toNat % 64 * 4096 + c₂.toNat % 64 * 64 + c₃.toNat % 64 := by
  have hc : (c &&& 0x07).toNat = c.toNat % 8 :=
    (UInt8.toNat_and c 0x07).trans (Nat.and_two_pow_sub_one_eq_mod c.toNat 3)
  rw [codePoint₄, hc, continuation_bits, continuation_bits, continuation_bits, Nat.or_assoc,
    Nat.or_assoc,
    shiftLeft_or (c₂.toNat % 64) (by omega), shiftLeft_or (c₁.toNat % 64) (by omega),
    shiftLeft_or (c.toNat % 8) (by omega)]
  omega

/-- The bytes of a character, by its code point. -/
theorem utf8EncodeChar_cases (ch : Char) :
    (ch.toNat < 0x80 ∧ ∃ c, String.utf8EncodeChar ch = [c] ∧ c.toNat = ch.toNat) ∨
    (0x80 ≤ ch.toNat ∧ ch.toNat < 0x800 ∧ ∃ c c₁, String.utf8EncodeChar ch = [c, c₁] ∧
      c.toNat = 0xC0 + ch.toNat / 64 ∧ c₁.toNat = 0x80 + ch.toNat % 64) ∨
    (0x800 ≤ ch.toNat ∧ ch.toNat < 0x10000 ∧ ∃ c c₁ c₂,
      String.utf8EncodeChar ch = [c, c₁, c₂] ∧ c.toNat = 0xE0 + ch.toNat / 4096 ∧
        c₁.toNat = 0x80 + ch.toNat / 64 % 64 ∧ c₂.toNat = 0x80 + ch.toNat % 64) ∨
    (0x10000 ≤ ch.toNat ∧ ch.toNat < 0x110000 ∧ ∃ c c₁ c₂ c₃,
      String.utf8EncodeChar ch = [c, c₁, c₂, c₃] ∧ c.toNat = 0xF0 + ch.toNat / 262144 ∧
        c₁.toNat = 0x80 + ch.toNat / 4096 % 64 ∧ c₂.toNat = 0x80 + ch.toNat / 64 % 64 ∧
          c₃.toNat = 0x80 + ch.toNat % 64) := by
  have hmax : ch.toNat < 0x110000 := by
    have hvalid := ch.valid
    unfold UInt32.isValidChar Nat.isValidChar at hvalid
    show ch.val.toNat < 0x110000
    omega
  have hbyte : ∀ n < 256, (UInt8.ofNat n).toNat = n := fun n hn => UInt8.toNat_ofNat_of_lt' hn
  unfold String.utf8EncodeChar
  change (ch.toNat < 0x80 ∧ _) ∨ _
  dsimp only
  rw [show ch.val.toNat = ch.toNat from rfl]
  split
  next h => exact Or.inl ⟨by omega, _, rfl, hbyte _ (by omega)⟩
  next h =>
    split
    next h' =>
      refine Or.inr (Or.inl ⟨by omega, by omega, _, _, rfl, ?_, ?_⟩)
      · rw [hbyte _ (by omega)]
        omega
      · rw [hbyte _ (by omega)]
        omega
    next h' =>
      split
      next h'' =>
        refine Or.inr (Or.inr (Or.inl ⟨by omega, by omega, _, _, _, rfl, ?_, ?_, ?_⟩))
        · rw [hbyte _ (by omega)]
          omega
        · rw [hbyte _ (by omega)]
          omega
        · rw [hbyte _ (by omega)]
          omega
      next h'' =>
        refine Or.inr (Or.inr (Or.inr ⟨by omega, hmax, _, _, _, _, rfl, ?_, ?_, ?_, ?_⟩))
        · rw [hbyte _ (by omega)]
          omega
        · rw [hbyte _ (by omega)]
          omega
        · rw [hbyte _ (by omega)]
          omega
        · rw [hbyte _ (by omega)]
          omega

theorem exists_char {n : Nat} (h : n.isValidChar) : ∃ ch : Char, ch.toNat = n := by
  refine ⟨Char.ofNat n, ?_⟩
  rw [Char.ofNat, dif_pos h]
  rfl

theorem single_encodes {c : UInt8} (hc : c.toNat < 0x80) :
    ∃ ch : Char, String.utf8EncodeChar ch = [c] := by
  obtain ⟨ch, hch⟩ := exists_char (n := c.toNat) (Or.inl (by omega))
  rcases utf8EncodeChar_cases ch with ⟨-, x, hx, hn⟩ | ⟨hlo, -⟩ | ⟨hlo, -⟩ | ⟨hlo, -⟩
  · obtain rfl : x = c := UInt8.toNat_inj.mp (hn.trans hch)
    exact ⟨ch, hx⟩
  · omega
  · omega
  · omega

theorem two_encode {c c₁ : UInt8} (hc : c.toNat / 32 = 6) (hc₁ : c₁.toNat / 64 = 2)
    (hcp : 0x80 ≤ codePoint₂ c c₁) : ∃ ch : Char, String.utf8EncodeChar ch = [c, c₁] := by
  rw [codePoint₂_eq] at hcp
  obtain ⟨ch, hch⟩ := exists_char (n := c.toNat % 32 * 64 + c₁.toNat % 64) (Or.inl (by omega))
  rcases utf8EncodeChar_cases ch with ⟨hhi, -⟩ | ⟨-, -, x, x₁, hx, hn, hn₁⟩ | ⟨hlo, -⟩ | ⟨hlo, -⟩
  · omega
  · obtain rfl : x = c := UInt8.toNat_inj.mp (by omega)
    obtain rfl : x₁ = c₁ := UInt8.toNat_inj.mp (by omega)
    exact ⟨ch, hx⟩
  · omega
  · omega

theorem three_encode {c c₁ c₂ : UInt8} (hc : c.toNat / 16 = 14) (hc₁ : c₁.toNat / 64 = 2)
    (hc₂ : c₂.toNat / 64 = 2) (hcp : 0x800 ≤ codePoint₃ c c₁ c₂)
    (hsurrogate : codePoint₃ c c₁ c₂ < 0xD800 ∨ 0xDFFF < codePoint₃ c c₁ c₂) :
    ∃ ch : Char, String.utf8EncodeChar ch = [c, c₁, c₂] := by
  rw [codePoint₃_eq] at hcp hsurrogate
  have hvalid : (c.toNat % 16 * 4096 + c₁.toNat % 64 * 64 + c₂.toNat % 64).isValidChar := by
    unfold Nat.isValidChar
    omega
  obtain ⟨ch, hch⟩ := exists_char hvalid
  rcases utf8EncodeChar_cases ch with
    ⟨hhi, -⟩ | ⟨-, hhi, -⟩ | ⟨-, -, x, x₁, x₂, hx, hn, hn₁, hn₂⟩ | ⟨hlo, -⟩
  · omega
  · omega
  · obtain rfl : x = c := UInt8.toNat_inj.mp (by omega)
    obtain rfl : x₁ = c₁ := UInt8.toNat_inj.mp (by omega)
    obtain rfl : x₂ = c₂ := UInt8.toNat_inj.mp (by omega)
    exact ⟨ch, hx⟩
  · omega

theorem four_encode {c c₁ c₂ c₃ : UInt8} (hc : c.toNat / 8 = 30) (hc₁ : c₁.toNat / 64 = 2)
    (hc₂ : c₂.toNat / 64 = 2) (hc₃ : c₃.toNat / 64 = 2) (hcp : 0x10000 ≤ codePoint₄ c c₁ c₂ c₃)
    (hmax : codePoint₄ c c₁ c₂ c₃ ≤ 0x10FFFF) :
    ∃ ch : Char, String.utf8EncodeChar ch = [c, c₁, c₂, c₃] := by
  rw [codePoint₄_eq] at hcp hmax
  have hvalid : (c.toNat % 8 * 262144 + c₁.toNat % 64 * 4096 + c₂.toNat % 64 * 64 +
      c₃.toNat % 64).isValidChar := by
    unfold Nat.isValidChar
    omega
  obtain ⟨ch, hch⟩ := exists_char hvalid
  rcases utf8EncodeChar_cases ch with
    ⟨hhi, -⟩ | ⟨-, hhi, -⟩ | ⟨-, hhi, -⟩ | ⟨-, -, x, x₁, x₂, x₃, hx, hn, hn₁, hn₂, hn₃⟩
  · omega
  · omega
  · omega
  · obtain rfl : x = c := UInt8.toNat_inj.mp (by omega)
    obtain rfl : x₁ = c₁ := UInt8.toNat_inj.mp (by omega)
    obtain rfl : x₂ = c₂ := UInt8.toNat_inj.mp (by omega)
    obtain rfl : x₃ = c₃ := UInt8.toNat_inj.mp (by omega)
    exact ⟨ch, hx⟩

/-- One round of the loop over the bytes of a character. -/
theorem isValidUtf8_encoded {ch : Char} (hnul : 0 ∉ String.utf8EncodeChar ch)
    (str : List UInt8) : isValidUtf8 (String.utf8EncodeChar ch ++ str) = isValidUtf8 str := by
  rcases utf8EncodeChar_cases ch with
    ⟨hhi, c, hx, hn⟩ | ⟨hlo, hhi, c, c₁, hx, hn, hn₁⟩ |
    ⟨hlo, hhi, c, c₁, c₂, hx, hn, hn₁, hn₂⟩ | ⟨hlo, hhi, c, c₁, c₂, c₃, hx, hn, hn₁, hn₂, hn₃⟩
  · rw [hx] at hnul ⊢
    have hc : c ≠ 0 := fun h => hnul (by simp [h])
    have hsingle : c &&& 0x80 = 0x00 := (single_iff c).mpr (by omega)
    rw [List.singleton_append, isValidUtf8.eq_def]
    simp only [if_neg hc, if_pos hsingle]
  · rw [hx] at hnul ⊢
    have hc : c ≠ 0 := fun h => hnul (by simp [h])
    have hsingle : ¬c &&& 0x80 = 0x00 := by rw [single_iff]; omega
    have hlead : c &&& 0xE0 = 0xC0 := (lead₂_iff c).mpr (by omega)
    have hcont : isContinuation c₁ = true := (isContinuation_iff c₁).mpr (by omega)
    have hcp : ¬codePoint₂ c c₁ < 0x80 := by
      rw [codePoint₂_eq]
      omega
    rw [List.cons_append, List.singleton_append, isValidUtf8.eq_def]
    simp only [if_neg hc, if_neg hsingle, if_pos hlead, hcont, Bool.not_true, Bool.false_eq_true,
      if_false, if_neg hcp]
  · rw [hx] at hnul ⊢
    have hc : c ≠ 0 := fun h => hnul (by simp [h])
    have hsingle : ¬c &&& 0x80 = 0x00 := by rw [single_iff]; omega
    have htwo : ¬c &&& 0xE0 = 0xC0 := by rw [lead₂_iff]; omega
    have hlead : c &&& 0xF0 = 0xE0 := (lead₃_iff c).mpr (by omega)
    have hcont₁ : isContinuation c₁ = true := (isContinuation_iff c₁).mpr (by omega)
    have hcont₂ : isContinuation c₂ = true := (isContinuation_iff c₂).mpr (by omega)
    have hscalar := ch.valid
    have hcp : ¬(codePoint₃ c c₁ c₂ < 0x800 ∨
        (0xD800 ≤ codePoint₃ c c₁ c₂ ∧ codePoint₃ c c₁ c₂ ≤ 0xDFFF)) := by
      have heq : codePoint₃ c c₁ c₂ = ch.toNat := by
        rw [codePoint₃_eq]
        omega
      rw [heq]
      change Nat.isValidChar ch.toNat at hscalar
      unfold Nat.isValidChar at hscalar
      omega
    rw [List.cons_append, List.cons_append, List.singleton_append, isValidUtf8.eq_def]
    simp only [if_neg hc, if_neg hsingle, if_neg htwo, if_pos hlead, hcont₁, hcont₂,
      Bool.not_true, Bool.false_eq_true, if_false, if_neg hcp]
  · rw [hx] at hnul ⊢
    have hc : c ≠ 0 := fun h => hnul (by simp [h])
    have hsingle : ¬c &&& 0x80 = 0x00 := by rw [single_iff]; omega
    have htwo : ¬c &&& 0xE0 = 0xC0 := by rw [lead₂_iff]; omega
    have hthree : ¬c &&& 0xF0 = 0xE0 := by rw [lead₃_iff]; omega
    have hlead : c &&& 0xF8 = 0xF0 := (lead₄_iff c).mpr (by omega)
    have hcont₁ : isContinuation c₁ = true := (isContinuation_iff c₁).mpr (by omega)
    have hcont₂ : isContinuation c₂ = true := (isContinuation_iff c₂).mpr (by omega)
    have hcont₃ : isContinuation c₃ = true := (isContinuation_iff c₃).mpr (by omega)
    have hcp : ¬(codePoint₄ c c₁ c₂ c₃ < 0x10000 ∨ 0x10FFFF < codePoint₄ c c₁ c₂ c₃) := by
      rw [codePoint₄_eq]
      omega
    rw [List.cons_append, List.cons_append, List.cons_append, List.singleton_append,
      isValidUtf8.eq_def]
    simp only [if_neg hc, if_neg hsingle, if_neg htwo, if_neg hthree, if_pos hlead, hcont₁,
      hcont₂, hcont₃, Bool.not_true, Bool.false_eq_true, if_false, if_neg hcp]

theorem WellFormedUtf8.cons {ch : Char} {first rest : List UInt8}
    (hch : String.utf8EncodeChar ch = first) (h : WellFormedUtf8 rest) :
    WellFormedUtf8 (first ++ rest) := by
  obtain ⟨text, rfl⟩ := h
  exact ⟨ch :: text, by rw [List.flatMap_cons, hch]⟩

/-- The memory is read no further than to a rejection, or accepted with the text before its first
NUL well formed. -/
def Judged (mem : List UInt8) (result : Option Bool) : Prop :=
  result = some false ∨ (result = some true ∧ WellFormedUtf8 (cstring mem))

theorem cstring_append {bytes : List UInt8} (h : 0 ∉ bytes) (rest : List UInt8) :
    cstring (bytes ++ rest) = bytes ++ cstring rest := by
  have hpos : ∀ c ∈ bytes, (c != 0) = true := by
    intro c hc
    simp only [bne_iff_ne, ne_eq]
    rintro rfl
    exact h hc
  exact List.takeWhile_append_of_pos hpos

theorem cstring_append_nul {bytes : List UInt8} (h : 0 ∉ bytes) (beyond : List UInt8) :
    cstring (bytes ++ 0 :: beyond) = bytes := by
  rw [cstring_append h]
  exact List.append_nil bytes

theorem nul_of_cons {c : UInt8} {str : List UInt8} (h : 0 ∈ c :: str) (hc : c ≠ 0) : 0 ∈ str := by
  rcases List.mem_cons.mp h with h | h
  · exact absurd h.symm hc
  · exact h

theorem ne_zero_of_continuation {c : UInt8} (h : isContinuation c = true) : c ≠ 0 := by
  rintro rfl
  cases h

theorem Judged.encoded {ch : Char} {first str : List UInt8} {result : Option Bool}
    (hch : String.utf8EncodeChar ch = first) (hne : 0 ∉ first) (h : Judged str result) :
    Judged (first ++ str) result := by
  rcases h with h | ⟨h, htext⟩
  · exact Or.inl h
  · refine Or.inr ⟨h, ?_⟩
    rw [cstring_append hne]
    exact WellFormedUtf8.cons hch htext

/-- By the function's own recursion: a rejection at any point is one of the text, and the bytes
of a round are those of one character. -/
theorem isValidUtf8_judged {mem : List UInt8} (hnul : 0 ∈ mem) : Judged mem (isValidUtf8 mem) := by
  fun_induction isValidUtf8 mem with
  | case1 => cases hnul
  | case2 str => exact Or.inr ⟨rfl, [], rfl⟩
  | case3 c str hc hsingle ih =>
    obtain ⟨ch, hch⟩ := single_encodes ((single_iff c).mp hsingle)
    exact (ih (nul_of_cons hnul hc)).encoded hch (by simpa using Ne.symm hc)
  | case4 c hc => exact absurd (nul_of_cons hnul hc) List.not_mem_nil
  | case5 => exact Or.inl rfl
  | case6 => exact Or.inl rfl
  | case7 c hc _ hlead c₁ str hcont hcp ih =>
    have hcont₁ : isContinuation c₁ = true := by simpa using hcont
    have hc₁ := ne_zero_of_continuation hcont₁
    obtain ⟨ch, hch⟩ := two_encode ((lead₂_iff c).mp hlead) ((isContinuation_iff c₁).mp hcont₁)
      (Nat.le_of_not_lt hcp)
    exact (ih (nul_of_cons (nul_of_cons hnul hc) hc₁)).encoded hch
      (by simp [Ne.symm hc, Ne.symm hc₁])
  | case8 c hc => exact absurd (nul_of_cons hnul hc) List.not_mem_nil
  | case9 => exact Or.inl rfl
  | case10 c hc _ _ _ c₁ hcont =>
    have hc₁ := ne_zero_of_continuation (by simpa using hcont)
    exact absurd (nul_of_cons (nul_of_cons hnul hc) hc₁) List.not_mem_nil
  | case11 => exact Or.inl rfl
  | case12 => exact Or.inl rfl
  | case13 c hc _ _ hlead c₁ hcont₁ c₂ str hcont₂ cp hcp ih =>
    rw [Bool.not_eq_true', Bool.not_eq_false] at hcont₁ hcont₂
    have hc₁ := ne_zero_of_continuation hcont₁
    have hc₂ := ne_zero_of_continuation hcont₂
    obtain ⟨ch, hch⟩ := three_encode ((lead₃_iff c).mp hlead) ((isContinuation_iff c₁).mp hcont₁)
      ((isContinuation_iff c₂).mp hcont₂) (by omega) (by omega)
    exact (ih (nul_of_cons (nul_of_cons (nul_of_cons hnul hc) hc₁) hc₂)).encoded hch
      (by simp [Ne.symm hc, Ne.symm hc₁, Ne.symm hc₂])
  | case14 c hc => exact absurd (nul_of_cons hnul hc) List.not_mem_nil
  | case15 => exact Or.inl rfl
  | case16 c hc _ _ _ _ c₁ hcont =>
    have hc₁ := ne_zero_of_continuation (by simpa using hcont)
    exact absurd (nul_of_cons (nul_of_cons hnul hc) hc₁) List.not_mem_nil
  | case17 => exact Or.inl rfl
  | case18 c hc _ _ _ _ c₁ hcont₁ c₂ hcont₂ =>
    have hc₁ := ne_zero_of_continuation (by simpa using hcont₁)
    have hc₂ := ne_zero_of_continuation (by simpa using hcont₂)
    exact absurd (nul_of_cons (nul_of_cons (nul_of_cons hnul hc) hc₁) hc₂) List.not_mem_nil
  | case19 => exact Or.inl rfl
  | case20 => exact Or.inl rfl
  | case21 c hc _ _ _ hlead c₁ hcont₁ c₂ hcont₂ c₃ str hcont₃ cp hcp ih =>
    rw [Bool.not_eq_true', Bool.not_eq_false] at hcont₁ hcont₂ hcont₃
    have hc₁ := ne_zero_of_continuation hcont₁
    have hc₂ := ne_zero_of_continuation hcont₂
    have hc₃ := ne_zero_of_continuation hcont₃
    obtain ⟨ch, hch⟩ := four_encode ((lead₄_iff c).mp hlead) ((isContinuation_iff c₁).mp hcont₁)
      ((isContinuation_iff c₂).mp hcont₂) ((isContinuation_iff c₃).mp hcont₃) (by omega)
      (by omega)
    exact (ih (nul_of_cons (nul_of_cons (nul_of_cons (nul_of_cons hnul hc) hc₁) hc₂) hc₃)).encoded
      hch (by simp [Ne.symm hc, Ne.symm hc₁, Ne.symm hc₂, Ne.symm hc₃])
  | case22 => exact Or.inl rfl

theorem isValidUtf8_text (text : List Char) (hnul : 0 ∉ text.flatMap String.utf8EncodeChar)
    (beyond : List UInt8) :
    isValidUtf8 (text.flatMap String.utf8EncodeChar ++ 0 :: beyond) = some true := by
  induction text with
  | nil =>
    rw [List.flatMap_nil, List.nil_append, isValidUtf8.eq_def]
    exact if_pos rfl
  | cons ch text ih =>
    rw [List.flatMap_cons, List.mem_append, not_or] at hnul
    rw [List.flatMap_cons, List.append_assoc, isValidUtf8_encoded hnul.1]
    exact ih hnul.2

/-- Whatever lies behind the NUL, and also if nothing does: the text is accepted if and only if it
is UTF-8, and rejected otherwise. -/
theorem isValidUtf8_exact (str : CString) :
    ∃ valid : Bool, (∀ beyond, isValidUtf8 (str.bytes ++ 0 :: beyond) = some valid) ∧
      (valid = true ↔ WellFormedUtf8 str.bytes) := by
  have hjudged : ∀ beyond, isValidUtf8 (str.bytes ++ 0 :: beyond) = some false ∨
      (isValidUtf8 (str.bytes ++ 0 :: beyond) = some true ∧ WellFormedUtf8 str.bytes) := by
    intro beyond
    have h := @isValidUtf8_judged (str.bytes ++ 0 :: beyond) (by simp)
    unfold Judged at h
    rwa [cstring_append_nul str.noNul] at h
  by_cases hwf : WellFormedUtf8 str.bytes
  · refine ⟨true, fun beyond => ?_, iff_of_true rfl hwf⟩
    obtain ⟨text, htext⟩ := hwf
    rw [htext]
    exact isValidUtf8_text text (htext ▸ str.noNul) beyond
  · refine ⟨false, fun beyond => ?_, iff_of_false nofun hwf⟩
    rcases hjudged beyond with h | h
    · exact h
    · exact absurd h.2 hwf

/-- An overlong form and a text that ends in the middle of a character. -/
example : isValidUtf8 [0xC0, 0xAF, 0] = some false ∧
    isValidUtf8 [0x68, 0xE2, 0x82, 0] = some false := by decide

end ModAudioStream
