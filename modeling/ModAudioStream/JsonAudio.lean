import ModAudioStream.MessageEvents
import ModAudioStream.Base64Text

namespace ModAudioStream

/-- The URL-safe alphabet, which differs in its last two characters. -/
def base64UrlAlphabet : List UInt8 :=
  ascii "ABCDEFGHIJKLMNOPQRSTUVWXYZabcdefghijklmnopqrstuvwxyz0123456789-_"

/-- The character that stands for a value of six bits, of either alphabet. -/
def Stands (value : Nat) (c : UInt8) : Prop :=
  c = base64Alphabet.getD value 0 ∨ c = base64UrlAlphabet.getD value 0

/-- No padding, or as much as the last group lacks. -/
def Padding (lacking : Nat) (padding : List UInt8) : Prop :=
  padding = [] ∨ (padding.length = lacking ∧ ∀ c ∈ padding, isPadding c = true)

/-- The Base64 texts of a byte string: groups of three bytes by the values of their bits, the last
group padded or not. -/
inductive Base64Of : List UInt8 → List UInt8 → Prop
  | nil : Base64Of [] []
  | one (b₀ : UInt8) {c₀ c₁ : UInt8} {padding : List UInt8}
      (h₀ : Stands (b₀.toNat / 4) c₀) (h₁ : Stands (b₀.toNat % 4 * 16) c₁)
      (hp : Padding 2 padding) : Base64Of [b₀] (c₀ :: c₁ :: padding)
  | two (b₀ b₁ : UInt8) {c₀ c₁ c₂ : UInt8} {padding : List UInt8}
      (h₀ : Stands (b₀.toNat / 4) c₀) (h₁ : Stands (b₀.toNat % 4 * 16 + b₁.toNat / 16) c₁)
      (h₂ : Stands (b₁.toNat % 16 * 4) c₂) (hp : Padding 1 padding) :
      Base64Of [b₀, b₁] (c₀ :: c₁ :: c₂ :: padding)
  | three (b₀ b₁ b₂ : UInt8) {c₀ c₁ c₂ c₃ : UInt8} {bytes text : List UInt8}
      (h₀ : Stands (b₀.toNat / 4) c₀) (h₁ : Stands (b₀.toNat % 4 * 16 + b₁.toNat / 16) c₁)
      (h₂ : Stands (b₁.toNat % 16 * 4 + b₂.toNat / 64) c₂) (h₃ : Stands (b₂.toNat % 64) c₃)
      (rest : Base64Of bytes text) :
      Base64Of (b₀ :: b₁ :: b₂ :: bytes) (c₀ :: c₁ :: c₂ :: c₃ :: text)

theorem posOfChar_alphabet : ∀ value < 64,
    posOfChar (base64Alphabet.getD value 0) = .ok value ∧
      isPadding (base64Alphabet.getD value 0) = false := by decide +kernel

theorem posOfChar_urlAlphabet : ∀ value < 64,
    posOfChar (base64UrlAlphabet.getD value 0) = .ok value ∧
      isPadding (base64UrlAlphabet.getD value 0) = false := by decide +kernel

theorem Stands.pos {value : Nat} {c : UInt8} (h : Stands value c) (hv : value < 64) :
    posOfChar c = .ok value ∧ isPadding c = false := by
  rcases h with rfl | rfl
  · exact posOfChar_alphabet value hv
  · exact posOfChar_urlAlphabet value hv

theorem filter_padding {c : Option UInt8} (h : ∀ x ∈ c, isPadding x = true) :
    c.filter (!isPadding ·) = none := by
  cases c with
  | none => rfl
  | some x => simp [h x rfl]

section

variable {c₀ c₁ c₂ c₃ : UInt8} {p₀ p₁ p₂ p₃ : Nat}

theorem decodeChunk_one (h₀ : posOfChar c₀ = .ok p₀) (h₁ : posOfChar c₁ = .ok p₁)
    {c₂ c₃ : Option UInt8} (hp : ∀ x ∈ c₂, isPadding x = true) :
    decodeChunk c₀ c₁ c₂ c₃ = .ok [UInt8.ofNat (p₀ * 4 + p₁ / 16)] := by
  unfold decodeChunk
  rw [h₀, h₁, filter_padding hp]
  rfl

theorem decodeChunk_two (h₀ : posOfChar c₀ = .ok p₀) (h₁ : posOfChar c₁ = .ok p₁)
    (h₂ : posOfChar c₂ = .ok p₂ ∧ isPadding c₂ = false) {c₃ : Option UInt8}
    (hp : ∀ x ∈ c₃, isPadding x = true) :
    decodeChunk c₀ c₁ (some c₂) c₃ =
      .ok [UInt8.ofNat (p₀ * 4 + p₁ / 16), UInt8.ofNat (p₁ % 16 * 16 + p₂ / 4)] := by
  have hsome₂ : (some c₂).filter (!isPadding ·) = some c₂ := by simp [h₂.2]
  unfold decodeChunk
  rw [h₀, h₁, hsome₂, filter_padding hp]
  change (posOfChar c₂ >>= _) = _
  rw [h₂.1]
  rfl

theorem decodeChunk_three (h₀ : posOfChar c₀ = .ok p₀) (h₁ : posOfChar c₁ = .ok p₁)
    (h₂ : posOfChar c₂ = .ok p₂ ∧ isPadding c₂ = false)
    (h₃ : posOfChar c₃ = .ok p₃ ∧ isPadding c₃ = false) :
    decodeChunk c₀ c₁ (some c₂) (some c₃) =
      .ok [UInt8.ofNat (p₀ * 4 + p₁ / 16), UInt8.ofNat (p₁ % 16 * 16 + p₂ / 4),
        UInt8.ofNat (p₂ % 4 * 64 + p₃)] := by
  have hsome₂ : (some c₂).filter (!isPadding ·) = some c₂ := by simp [h₂.2]
  have hsome₃ : (some c₃).filter (!isPadding ·) = some c₃ := by simp [h₃.2]
  unfold decodeChunk
  rw [h₀, h₁, hsome₂, hsome₃]
  change (posOfChar c₂ >>= _) = _
  rw [h₂.1]
  change (posOfChar c₃ >>= _) = _
  rw [h₃.1]
  rfl

end

theorem ofNat_split {b : UInt8} {n : Nat} (h : n = b.toNat) : UInt8.ofNat n = b := by
  rw [h, UInt8.ofNat_toNat]

theorem Padding.cases_one {padding : List UInt8} (h : Padding 1 padding) :
    padding = [] ∨ ∃ c, padding = [c] ∧ isPadding c = true := by
  rcases h with h | ⟨hlen, hpad⟩
  · exact Or.inl h
  · obtain ⟨c, rfl⟩ := List.length_eq_one_iff.mp hlen
    exact Or.inr ⟨c, rfl, hpad c (by simp)⟩

theorem Padding.cases_two {padding : List UInt8} (h : Padding 2 padding) :
    padding = [] ∨ ∃ c c', padding = [c, c'] ∧ isPadding c = true := by
  rcases h with h | ⟨hlen, hpad⟩
  · exact Or.inl h
  · obtain ⟨c, c', rfl⟩ := List.length_eq_two.mp hlen
    exact Or.inr ⟨c, c', rfl, hpad c (by simp)⟩

/-- By induction on the groups; the values of a group's characters are its bits. -/
theorem decodeLoop_base64Of {bytes text : List UInt8} (h : Base64Of bytes text) (size pos : Nat) :
    decodeLoop size pos text = .ok bytes := by
  induction h generalizing pos with
  | nil => rfl
  | @one b₀ c₀ c₁ padding h₀ h₁ hp =>
    have hb₀ := b₀.toNat_lt
    have hpos₀ := h₀.pos (by omega)
    have hpos₁ := h₁.pos (by omega)
    have hbytes : [UInt8.ofNat (b₀.toNat / 4 * 4 + b₀.toNat % 4 * 16 / 16)] = [b₀] := by
      rw [ofNat_split (b := b₀) (by omega)]
    rcases hp.cases_two with rfl | ⟨c, c', rfl, hc⟩
    · exact (decodeChunk_one hpos₀.1 hpos₁.1 (by simp)).trans (congrArg Except.ok hbytes)
    · have hchunk := @decodeChunk_one c₀ c₁ _ _ hpos₀.1 hpos₁.1 (some c) (some c')
        (by simpa using hc)
      rw [hbytes] at hchunk
      rw [decodeLoop, hchunk]
      rfl
  | @two b₀ b₁ c₀ c₁ c₂ padding h₀ h₁ h₂ hp =>
    have hb₀ := b₀.toNat_lt
    have hb₁ := b₁.toNat_lt
    have hpos₀ := h₀.pos (by omega)
    have hpos₁ := h₁.pos (by omega)
    have hpos₂ := h₂.pos (by omega)
    have hbytes : [UInt8.ofNat (b₀.toNat / 4 * 4 + (b₀.toNat % 4 * 16 + b₁.toNat / 16) / 16),
        UInt8.ofNat ((b₀.toNat % 4 * 16 + b₁.toNat / 16) % 16 * 16 +
          b₁.toNat % 16 * 4 / 4)] = [b₀, b₁] := by
      rw [ofNat_split (b := b₀) (by omega), ofNat_split (b := b₁) (by omega)]
    rcases hp.cases_one with rfl | ⟨c, rfl, hc⟩
    · exact (decodeChunk_two hpos₀.1 hpos₁.1 hpos₂ (by simp)).trans (congrArg Except.ok hbytes)
    · have hchunk := @decodeChunk_two c₀ c₁ c₂ _ _ _ hpos₀.1 hpos₁.1 hpos₂ (some c)
        (by simpa using hc)
      rw [hbytes] at hchunk
      rw [decodeLoop, hchunk]
      rfl
  | @three b₀ b₁ b₂ c₀ c₁ c₂ c₃ bytes text h₀ h₁ h₂ h₃ rest ih =>
    have hb₀ := b₀.toNat_lt
    have hb₁ := b₁.toNat_lt
    have hb₂ := b₂.toNat_lt
    have hpos₀ := h₀.pos (by omega)
    have hpos₁ := h₁.pos (by omega)
    have hpos₂ := h₂.pos (by omega)
    have hpos₃ := h₃.pos (by omega)
    have hbytes : [UInt8.ofNat (b₀.toNat / 4 * 4 + (b₀.toNat % 4 * 16 + b₁.toNat / 16) / 16),
        UInt8.ofNat ((b₀.toNat % 4 * 16 + b₁.toNat / 16) % 16 * 16 +
          (b₁.toNat % 16 * 4 + b₂.toNat / 64) / 4),
        UInt8.ofNat ((b₁.toNat % 16 * 4 + b₂.toNat / 64) % 4 * 64 + b₂.toNat % 64)] =
          [b₀, b₁, b₂] := by
      rw [ofNat_split (b := b₀) (by omega), ofNat_split (b := b₁) (by omega),
        ofNat_split (b := b₂) (by omega)]
    have hchunk := decodeChunk_three hpos₀.1 hpos₁.1 hpos₂ hpos₃
    rw [hbytes] at hchunk
    rw [decodeLoop, hchunk, ih]
    rfl

/-- Every Base64 text of a byte string decodes to it. -/
theorem base64Decode_base64Of {bytes text : List UInt8} (h : Base64Of bytes text) :
    base64Decode text = .ok bytes := decodeLoop_base64Of h _ _

section

variable {libs : MessageLibs} {before after : List (List UInt8 × CJson)} {name text : List UInt8}

end

end ModAudioStream
