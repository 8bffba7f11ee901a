import ModAudioStream.Base64Decoder

namespace ModAudioStream

/-- `base64_chars[url]` -/
def base64CharSet (url : Bool) : List UInt8 := if url then base64UrlAlphabet else base64Alphabet

def trailingChar (url : Bool) : UInt8 := if url then 0x2E else 0x3D

/-- One turn of the loop of `base64_encode`, where `pos` and what is added to it is an
`unsigned int`. -/
def encodeTurn (url : Bool) (bytes : List UInt8) (pos : Nat) : List UInt8 :=
  let byte (i : Nat) : Nat := (bytes.getD (uint32 (pos + i)) 0).toNat
  let char (value : Nat) : UInt8 := (base64CharSet url).getD value 0
  char ((byte 0 &&& 0xFC) >>> 2) ::
    if uint32 (pos + 1) < bytes.length then
      char (((byte 0 &&& 0x03) <<< 4) + ((byte 1 &&& 0xF0) >>> 4)) ::
        if uint32 (pos + 2) < bytes.length then
          [char (((byte 1 &&& 0x0F) <<< 2) + ((byte 2 &&& 0xC0) >>> 6)), char (byte 2 &&& 0x3F)]
        else [char ((byte 1 &&& 0x0F) <<< 2), trailingChar url]
    else [char ((byte 0 &&& 0x03) <<< 4), trailingChar url, trailingChar url]

/-- The loop, for at most `fuel` tests of its condition. -/
def encodeLoop (url : Bool) (bytes : List UInt8) : Nat → Nat → Option (List UInt8)
  | 0, _ => none
  | fuel + 1, pos =>
    if pos < bytes.length then
      (encodeLoop url bytes fuel (uint32 (pos + 3))).map (encodeTurn url bytes pos ++ ·)
    else some []

def base64Encode (fuel : Nat) (bytes : List UInt8) (url : Bool) : Option (List UInt8) :=
  encodeLoop url bytes fuel 0

/-- The character of the other alphabet. -/
def urlChar (url : Bool) (c : UInt8) : UInt8 :=
  if url then
    if c = 0x2B then 0x2D else if c = 0x2F then 0x5F else if c = 0x3D then 0x2E else c
  else c

theorem charSet_getD (url : Bool) : ∀ value < 64,
    (base64CharSet url).getD value 0 = urlChar url (base64Char value) := by
  cases url <;> decide +kernel

theorem urlChar_trailing (url : Bool) : urlChar url 0x3D = trailingChar url := by
  cases url <;> rfl

/-- What the masks and shifts of the loop make of a byte. -/
theorem byte_fields (b : UInt8) :
    (b.toNat &&& 0xFC) >>> 2 = b.toNat / 4 ∧ (b.toNat &&& 0x03) <<< 4 = b.toNat % 4 * 16 ∧
      (b.toNat &&& 0xF0) >>> 4 = b.toNat / 16 ∧ (b.toNat &&& 0x0F) <<< 2 = b.toNat % 16 * 4 ∧
      (b.toNat &&& 0xC0) >>> 6 = b.toNat / 64 ∧ b.toNat &&& 0x3F = b.toNat % 64 :=
  @uint8_all (fun b => (b.toNat &&& 0xFC) >>> 2 = b.toNat / 4 ∧
      (b.toNat &&& 0x03) <<< 4 = b.toNat % 4 * 16 ∧ (b.toNat &&& 0xF0) >>> 4 = b.toNat / 16 ∧
      (b.toNat &&& 0x0F) <<< 2 = b.toNat % 16 * 4 ∧ (b.toNat &&& 0xC0) >>> 6 = b.toNat / 64 ∧
      b.toNat &&& 0x3F = b.toNat % 64) (by decide +kernel) b

theorem charSet_b64 (url : Bool) {value n k : Nat} (hv : value < 64) (hn : n / 2 ^ k % 64 = value) :
    (base64CharSet url).getD value 0 = urlChar url (b64 n k) := by
  rw [charSet_getD url value hv, b64_eq_char, hn]

theorem getD_drop {bytes : List UInt8} {pos i : Nat} (h : pos + i < 2 ^ 32) :
    bytes.getD (uint32 (pos + i)) 0 = (bytes.drop pos).getD i 0 := by
  rw [uint32, Nat.mod_eq_of_lt h, List.getD_eq_getElem?_getD, List.getD_eq_getElem?_getD,
    List.getElem?_drop]

/-- A turn over the bytes that are left, when no position wraps around. -/
theorem encodeTurn_drop (url : Bool) {bytes : List UInt8} {pos : Nat} (h : pos + 3 < 2 ^ 32) :
    encodeTurn url bytes pos = encodeTurn url (bytes.drop pos) 0 := by
  have hget (i : Nat) (hi : i < 3) : bytes.getD (uint32 (pos + i)) 0 =
      (bytes.drop pos).getD (uint32 (0 + i)) 0 := by
    rw [getD_drop (by omega), Nat.zero_add, uint32, Nat.mod_eq_of_lt (by omega)]
  have hlt (i : Nat) (hi : i < 3) : (uint32 (pos + i) < bytes.length) =
      (uint32 (0 + i) < (bytes.drop pos).length) := by
    rw [uint32, uint32, Nat.mod_eq_of_lt (by omega), Nat.mod_eq_of_lt (by omega),
      List.length_drop]
    exact propext ⟨fun h => by omega, fun h => by omega⟩
  simp only [encodeTurn, hget 0 (by omega), hget 1 (by omega), hget 2 (by omega),
    hlt 1 (by omega), hlt 2 (by omega)]

/-- A turn writes a group of three bytes, or what is left of them with its padding. -/
theorem encodeTurn_three (url : Bool) (b₀ b₁ b₂ : UInt8) (rest : List UInt8) :
    encodeTurn url (b₀ :: b₁ :: b₂ :: rest) 0 =
      (base64Loop [b₀, b₁, b₂]).map (urlChar url) := by
  obtain ⟨hhigh₀, hlow₀, -⟩ := byte_fields b₀
  obtain ⟨-, -, hhigh₁, hlow₁, -⟩ := byte_fields b₁
  obtain ⟨-, -, -, -, hhigh₂, hlow₂⟩ := byte_fields b₂
  have hb₀ := b₀.toNat_lt
  have hb₁ := b₁.toNat_lt
  have hb₂ := b₂.toNat_lt
  have hc₀ := @charSet_b64 url (b₀.toNat / 4)
    (b₀.toNat * 2 ^ 16 + b₁.toNat * 2 ^ 8 + b₂.toNat) 18 (by omega) (by omega)
  have hc₁ := @charSet_b64 url (b₀.toNat % 4 * 16 + b₁.toNat / 16)
    (b₀.toNat * 2 ^ 16 + b₁.toNat * 2 ^ 8 + b₂.toNat) 12 (by omega) (by omega)
  have hc₂ := @charSet_b64 url (b₁.toNat % 16 * 4 + b₂.toNat / 64)
    (b₀.toNat * 2 ^ 16 + b₁.toNat * 2 ^ 8 + b₂.toNat) 6 (by omega) (by omega)
  have hc₃ := @charSet_b64 url (b₂.toNat % 64)
    (b₀.toNat * 2 ^ 16 + b₁.toNat * 2 ^ 8 + b₂.toNat) 0 (by omega) (by omega)
  simp only [List.getD_eq_getElem?_getD, Nat.reducePow] at hc₀ hc₁ hc₂ hc₃
  simp [encodeTurn, uint32, base64Loop, hhigh₀, hlow₀, hhigh₁, hlow₁, hhigh₂, hlow₂, hc₀, hc₁, hc₂,
    hc₃]

theorem encodeTurn_two (url : Bool) (b₀ b₁ : UInt8) :
    encodeTurn url [b₀, b₁] 0 = (base64Loop [b₀, b₁]).map (urlChar url) := by
  obtain ⟨hhigh₀, hlow₀, -⟩ := byte_fields b₀
  obtain ⟨-, -, hhigh₁, hlow₁, -⟩ := byte_fields b₁
  have hb₀ := b₀.toNat_lt
  have hb₁ := b₁.toNat_lt
  have hc₀ := @charSet_b64 url (b₀.toNat / 4) (b₀.toNat * 2 ^ 16 + b₁.toNat * 2 ^ 8) 18 (by omega)
    (by omega)
  have hc₁ := @charSet_b64 url (b₀.toNat % 4 * 16 + b₁.toNat / 16)
    (b₀.toNat * 2 ^ 16 + b₁.toNat * 2 ^ 8) 12 (by omega) (by omega)
  have hc₂ := @charSet_b64 url (b₁.toNat % 16 * 4) (b₀.toNat * 2 ^ 16 + b₁.toNat * 2 ^ 8) 6
    (by omega) (by omega)
  simp only [List.getD_eq_getElem?_getD, Nat.reducePow] at hc₀ hc₁ hc₂
  simp [encodeTurn, uint32, base64Loop, hhigh₀, hlow₀, hhigh₁, hlow₁, hc₀, hc₁, hc₂,
    urlChar_trailing]

theorem encodeTurn_one (url : Bool) (b₀ : UInt8) :
    encodeTurn url [b₀] 0 = (base64Loop [b₀]).map (urlChar url) := by
  obtain ⟨hhigh₀, hlow₀, -⟩ := byte_fields b₀
  have hb₀ := b₀.toNat_lt
  have hc₀ := @charSet_b64 url (b₀.toNat / 4) (b₀.toNat * 2 ^ 16) 18 (by omega) (by omega)
  have hc₁ := @charSet_b64 url (b₀.toNat % 4 * 16) (b₀.toNat * 2 ^ 16) 12 (by omega) (by omega)
  simp only [List.getD_eq_getElem?_getD, Nat.reducePow] at hc₀ hc₁
  simp [encodeTurn, uint32, base64Loop, hhigh₀, hlow₀, hc₀, hc₁, urlChar_trailing]

theorem encodeTurn_loop (url : Bool) {bytes : List UInt8} (h : bytes ≠ []) :
    encodeTurn url bytes 0 ++ (base64Loop (bytes.drop 3)).map (urlChar url) =
      (base64Loop bytes).map (urlChar url) := by
  match bytes with
  | [] => exact absurd rfl h
  | [b₀] => simp [encodeTurn_one, base64Loop]
  | [b₀, b₁] => simp [encodeTurn_two, base64Loop]
  | b₀ :: b₁ :: b₂ :: rest => simp [encodeTurn_three, base64Loop]

/-- The loop writes the text of the bytes that are left, by induction on its turns. -/
theorem encodeLoop_drop (url : Bool) {bytes : List UInt8} (hlen : bytes.length < 2 ^ 32)
    {fuel pos : Nat} (hpos : 3 ∣ pos) (hend : pos < bytes.length + 3)
    (hfuel : bytes.length + 3 ≤ pos + 3 * fuel) :
    encodeLoop url bytes fuel pos = some ((base64Loop (bytes.drop pos)).map (urlChar url)) := by
  induction fuel generalizing pos with
  | zero => omega
  | succ fuel ih =>
    rw [encodeLoop]
    split
    next hlt =>
      have hwrap : pos + 3 < 2 ^ 32 := by omega
      have hnext : uint32 (pos + 3) = pos + 3 := Nat.mod_eq_of_lt hwrap
      have hne : bytes.drop pos ≠ [] := by
        rw [Ne, List.drop_eq_nil_iff]
        omega
      rw [hnext, ih (by omega) (by omega) (by omega), Option.map_some, encodeTurn_drop url hwrap,
        ← encodeTurn_loop url hne, List.drop_drop]
    next hge =>
      rw [List.drop_eq_nil_of_le (by omega)]
      rfl

/-- When the length does not fit into `pos`, the condition of the loop never fails. -/
theorem encodeLoop_endless (url : Bool) {bytes : List UInt8} (hlen : 2 ^ 32 ≤ bytes.length)
    (fuel : Nat) {pos : Nat} (hpos : pos < 2 ^ 32) : encodeLoop url bytes fuel pos = none := by
  induction fuel generalizing pos with
  | zero => rfl
  | succ fuel ih =>
    have hnext : uint32 (pos + 3) < 2 ^ 32 := Nat.mod_lt _ (by omega)
    rw [encodeLoop, if_pos (by omega), ih hnext]
    rfl

theorem encodeLoop_mono (url : Bool) {bytes text : List UInt8} {fuel more pos : Nat}
    (hle : fuel ≤ more) (h : encodeLoop url bytes fuel pos = some text) :
    encodeLoop url bytes more pos = some text := by
  induction fuel generalizing more pos text with
  | zero => cases h
  | succ fuel ih =>
    obtain ⟨more, rfl⟩ : ∃ n, more = n + 1 := ⟨more - 1, by omega⟩
    rw [encodeLoop] at h ⊢
    split
    next hlt =>
      rw [if_pos hlt] at h
      obtain ⟨rest, hrest, rfl⟩ := Option.map_eq_some_iff.mp h
      rw [ih (by omega) hrest]
      rfl
    next hge =>
      rw [if_neg hge] at h
      exact h

/-- A result of the loop is the text, and there is one exactly when the length fits. -/
theorem base64Encode_eq_some {fuel : Nat} {bytes text : List UInt8} {url : Bool}
    (h : base64Encode fuel bytes url = some text) :
    bytes.length < 2 ^ 32 ∧ text = (base64Text bytes).map (urlChar url) := by
  have hlen : bytes.length < 2 ^ 32 := by
    by_contra hge
    rw [base64Encode, encodeLoop_endless url (Nat.le_of_not_lt hge) fuel (by omega)] at h
    cases h
  refine ⟨hlen, ?_⟩
  have hmore := encodeLoop_mono url (Nat.le_max_left fuel (bytes.length + 1)) h
  rw [encodeLoop_drop url hlen (Nat.dvd_zero 3) (by omega) (by omega), List.drop_zero,
    base64Loop_text] at hmore
  exact (Option.some.inj hmore).symm

theorem base64Encode_returns {bytes : List UInt8} (h : bytes.length < 2 ^ 32) (url : Bool) :
    base64Encode (bytes.length + 1) bytes url = some ((base64Text bytes).map (urlChar url)) := by
  rw [base64Encode, encodeLoop_drop url h (Nat.dvd_zero 3) (by omega) (by omega), List.drop_zero,
    base64Loop_text]

theorem urlChar_alphabet (url : Bool) (value : Nat) :
    urlChar url (base64Alphabet.getD value 0) = (base64CharSet url).getD value 0 ∧
      urlChar url (base64UrlAlphabet.getD value 0) = base64UrlAlphabet.getD value 0 := by
  by_cases h : value < 64
  · have all : ∀ value < 64,
        urlChar url (base64Alphabet.getD value 0) = (base64CharSet url).getD value 0 ∧
          urlChar url (base64UrlAlphabet.getD value 0) = base64UrlAlphabet.getD value 0 := by
      cases url <;> decide +kernel
    exact all value h
  · have past {set : List UInt8} (hset : set.length = 64) : set.getD value 0 = 0 := by
      rw [List.getD_eq_getElem?_getD, List.getElem?_eq_none (by omega)]
      rfl
    have hset : (base64CharSet url).length = 64 := by cases url <;> rfl
    rw [past hset, @past base64Alphabet rfl, @past base64UrlAlphabet rfl]
    cases url <;> exact ⟨rfl, rfl⟩

theorem stands_urlChar {value : Nat} {c : UInt8} (url : Bool) (h : Stands value c) :
    Stands value (urlChar url c) := by
  obtain ⟨hplain, hsafe⟩ := urlChar_alphabet url value
  rcases h with rfl | rfl
  · rw [hplain]
    cases url with
    | true => exact Or.inr rfl
    | false => exact Or.inl rfl
  · rw [hsafe]
    exact Or.inr rfl

theorem isPadding_urlChar (url : Bool) {c : UInt8} (h : isPadding c = true) :
    isPadding (urlChar url c) = true := by
  have hc : c = 0x3D ∨ c = 0x2E := by simpa [isPadding] using h
  rcases hc with rfl | rfl
  · cases url <;> rfl
  · cases url <;> rfl

theorem padding_urlChar (url : Bool) {lacking : Nat} {padding : List UInt8}
    (h : Padding lacking padding) : Padding lacking (padding.map (urlChar url)) := by
  rcases h with rfl | ⟨hlen, hall⟩
  · exact Or.inl rfl
  · refine Or.inr ⟨by rw [List.length_map, hlen], fun c hc => ?_⟩
    obtain ⟨d, hd, rfl⟩ := List.mem_map.mp hc
    exact isPadding_urlChar url (hall d hd)

/-- A text stays one of the same bytes in the other alphabet. -/
theorem base64Of_urlChar {bytes text : List UInt8} (url : Bool) (h : Base64Of bytes text) :
    Base64Of bytes (text.map (urlChar url)) := by
  induction h with
  | nil => exact .nil
  | one b₀ h₀ h₁ hp =>
    exact .one b₀ (stands_urlChar url h₀) (stands_urlChar url h₁) (padding_urlChar url hp)
  | two b₀ b₁ h₀ h₁ h₂ hp =>
    exact .two b₀ b₁ (stands_urlChar url h₀) (stands_urlChar url h₁) (stands_urlChar url h₂)
      (padding_urlChar url hp)
  | three b₀ b₁ b₂ h₀ h₁ h₂ h₃ rest ih =>
    exact .three b₀ b₁ b₂ (stands_urlChar url h₀) (stands_urlChar url h₁) (stands_urlChar url h₂)
      (stands_urlChar url h₃) ih

theorem base64Decode_text (url : Bool) (bytes : List UInt8) :
    base64Decode ((base64Text bytes).map (urlChar url)) = .ok bytes := by
  rw [← base64Loop_text]
  exact base64Decode_base64Of (base64Of_urlChar url (base64Loop_base64Of bytes))

/-- In either alphabet `base64_encode` returns exactly when its input is shorter than `pos` can
count; what it returns is then the text of RFC 4648 in that alphabet, and decodes to the input. -/
theorem base64_encode_iff (bytes : List UInt8) (url : Bool) :
    ((∃ fuel text, base64Encode fuel bytes url = some text) ↔ bytes.length < 2 ^ 32) ∧
    ∀ fuel text, base64Encode fuel bytes url = some text →
      text = (base64Text bytes).map (urlChar url) ∧ base64Decode text = .ok bytes := by
  refine ⟨⟨?_, fun h => ⟨_, _, base64Encode_returns h url⟩⟩, ?_⟩
  · rintro ⟨fuel, text, h⟩
    exact (base64Encode_eq_some h).1
  · intro fuel text h
    obtain rfl := (base64Encode_eq_some h).2
    exact ⟨rfl, base64Decode_text url bytes⟩

/-- The loop of `insert_linebreaks` from `pos` on. -/
def breakFrom (distance : LineLength) (str : List UInt8) (pos : Nat) : List UInt8 :=
  if pos < str.length then
    breakFrom distance (str.take pos ++ 0x0A :: str.drop pos) (pos + (distance.value + 1))
  else str
termination_by str.length - pos
decreasing_by
  have hpos := distance.pos
  simp only [List.length_append, List.length_take, List.length_cons, List.length_drop]
  omega

def insertLinebreaks (str : List UInt8) (distance : LineLength) : List UInt8 :=
  if str.isEmpty then [] else breakFrom distance str distance.value

def encodeWithLineBreaks (fuel : Nat) (line : LineLength) (s : List UInt8) :
    Option (List UInt8) :=
  (base64Encode fuel s false).map fun text => insertLinebreaks text line

def pemLine : LineLength := ⟨64, by decide⟩

def encodePem (fuel : Nat) (s : List UInt8) : Option (List UInt8) :=
  encodeWithLineBreaks fuel pemLine s

def mimeLine : LineLength := ⟨76, by decide⟩

def encodeMime (fuel : Nat) (s : List UInt8) : Option (List UInt8) :=
  encodeWithLineBreaks fuel mimeLine s

/-- The lines of both are whole quanta. -/
theorem dvd_lines : 4 ∣ pemLine.value ∧ 4 ∣ mimeLine.value := by decide

/-- `base64_decode` with its second argument. -/
def base64DecodeLines (s : List UInt8) (removeLinebreaks : Bool) :
    Except DecodeError (List UInt8) :=
  if s.isEmpty then .ok []
  else if removeLinebreaks then base64Decode (s.filter (· != 0x0A))
  else base64Decode s

/-- All lines but the last are full, and the last one is empty only for the empty text. -/
theorem linesOf_lengths (n : LineLength) (text : List UInt8) :
    ∃ full last, linesOf n text = full ++ [last] ∧ (full ++ [last]).flatten = text ∧
      (∀ line ∈ full, line.length = n.value) ∧ last.length ≤ n.value ∧
      (last = [] → text = []) := by
  induction text using linesOf.induct n with
  | case1 text hlt ih =>
    obtain ⟨full, last, hlines, hflat, hfull, hlast, hempty⟩ := ih
    have htake : (text.take n.value).length = n.value := by
      rw [List.length_take]
      omega
    refine ⟨text.take n.value :: full, last, ?_, ?_, ?_, hlast, ?_⟩
    · rw [linesOf_long hlt, hlines, List.cons_append]
    · rw [List.cons_append, List.flatten_cons, hflat, List.take_append_drop]
    · intro line hline
      rcases List.mem_cons.mp hline with rfl | hline
      · exact htake
      · exact hfull line hline
    · intro hnil
      have hdrop := List.drop_eq_nil_iff.mp (hempty hnil)
      omega
  | case2 text hge =>
    refine ⟨[], text, linesOf_short hge, by simp, ?_, by omega, fun h => h⟩
    intro line hline
    exact absurd hline List.not_mem_nil

/-- The loop puts a line feed between the lines of what follows the position it starts from. -/
theorem breakFrom_lines (n : LineLength) (before text : List UInt8) :
    breakFrom n (before ++ text) (before.length + n.value) =
      before ++ [0x0A].intercalate (linesOf n text) := by
  induction text using linesOf.induct n generalizing before with
  | case1 text hlt ih =>
    have htake : (before ++ text).take (before.length + n.value) =
        before ++ text.take n.value := by
      rw [List.take_length_add_append]
    have hdrop : (before ++ text).drop (before.length + n.value) = text.drop n.value := by
      rw [List.drop_length_add_append]
    have hbroken : before ++ text.take n.value ++ 0x0A :: text.drop n.value =
        (before ++ text.take n.value ++ [0x0A]) ++ text.drop n.value := by
      rw [List.append_assoc (before ++ text.take n.value), List.singleton_append]
    have hpos : before.length + n.value + (n.value + 1) =
        (before ++ text.take n.value ++ [0x0A]).length + n.value := by
      simp only [List.length_append, List.length_take, List.length_singleton]
      omega
    rw [breakFrom, if_pos (by rw [List.length_append]; omega), htake, hdrop, hbroken, hpos, ih,
      linesOf_long hlt, List.intercalate_cons_of_ne_nil (linesOf_ne_nil n _)]
    simp only [List.append_assoc]
  | case2 text hge =>
    rw [breakFrom, if_neg (by rw [List.length_append]; omega), linesOf_short hge,
      List.intercalate_singleton]

theorem insertLinebreaks_lines (n : LineLength) (text : List UInt8) :
    insertLinebreaks text n = [0x0A].intercalate (linesOf n text) := by
  rw [insertLinebreaks]
  split
  next hempty =>
    obtain rfl := List.isEmpty_iff.mp hempty
    rw [linesOf_short (by simp), List.intercalate_singleton]
  next hne => simpa using breakFrom_lines n [] text

/-- Line feeds between lines without any are all that is removed. -/
theorem filter_intercalate (lines : List (List UInt8)) (h : ∀ line ∈ lines, 0x0A ∉ line) :
    ([0x0A].intercalate lines).filter (· != 0x0A) = lines.flatten := by
  have keeps (line : List UInt8) (hline : line ∈ lines) : line.filter (· != 0x0A) = line := by
    rw [List.filter_eq_self]
    intro c hc
    rw [bne_iff_ne]
    rintro rfl
    exact h line hline hc
  induction lines with
  | nil => rfl
  | cons line lines ih =>
    have hrest := ih (fun l hl => h l (List.mem_cons_of_mem _ hl))
      (fun l hl => keeps l (List.mem_cons_of_mem _ hl))
    cases lines with
    | nil => rw [List.intercalate_singleton, keeps line List.mem_cons_self, List.flatten_singleton]
    | cons next lines =>
      have hfeed : [(0x0A : UInt8)].filter (· != 0x0A) = [] := rfl
      rw [List.intercalate_cons_cons, List.filter_append, List.filter_append, hrest, hfeed,
        keeps line List.mem_cons_self, List.append_nil]
      rfl

theorem base64Text_no_feed (bytes : List UInt8) : 0x0A ∉ base64Text bytes := by
  intro hmem
  rw [← base64Loop_text] at hmem
  exact absurd (base64Loop_chars bytes _ hmem) (by decide)

theorem urlChar_plain (text : List UInt8) : text.map (urlChar false) = text :=
  List.map_id text

theorem encodeWithLineBreaks_eq_some {fuel : Nat} {line : LineLength} {s text : List UInt8}
    (h : encodeWithLineBreaks fuel line s = some text) :
    s.length < 2 ^ 32 ∧ text = [0x0A].intercalate (linesOf line (base64Text s)) := by
  obtain ⟨plain, hplain, rfl⟩ := Option.map_eq_some_iff.mp h
  obtain ⟨hlen, rfl⟩ := base64Encode_eq_some hplain
  rw [urlChar_plain]
  exact ⟨hlen, insertLinebreaks_lines line (base64Text s)⟩

/-- A line feed does not fit where a quantum begins. -/
theorem not_fits_feed {text : List UInt8} {i : Nat} (hi : i % 4 = 0) (h : text.getD i 0 = 0x0A) :
    ¬Fits text i := by
  rintro (hvalue | ⟨htwo, -⟩ | ⟨hthree, -⟩)
  · rw [h] at hvalue
    exact absurd hvalue (by decide)
  · omega
  · omega

/-- Removing the line feeds undoes the lines of a text that has none itself. -/
theorem filter_lines (n : LineLength) {text : List UInt8} (h : 0x0A ∉ text) :
    ([0x0A].intercalate (linesOf n text)).filter (· != 0x0A) = text := by
  obtain ⟨full, last, hlines, hflat, -⟩ := linesOf_lengths n text
  rw [hlines, filter_intercalate, hflat]
  intro line hline hfeed
  rw [← hflat] at h
  exact h (List.mem_flatten.mpr ⟨line, hline, hfeed⟩)

/-- A text in lines of whole quanta is rejected as it stands when it has a second line. -/
theorem base64Decode_lines {line : LineLength} {text : List UInt8} (hline : 4 ∣ line.value)
    (hfeed : 0x0A ∉ text) (hlong : line.value < text.length) :
    base64Decode ([0x0A].intercalate (linesOf line text)) = .error .invalid := by
  have hrest : text.length - line.value ≤
      ([0x0A].intercalate (linesOf line (text.drop line.value))).length := by
    have hfilter := @filter_lines line (text.drop line.value)
      fun h => hfeed (List.mem_of_mem_drop h)
    have hle := List.length_filter_le (· != 0x0A)
      ([0x0A].intercalate (linesOf line (text.drop line.value)))
    rwa [hfilter, List.length_drop] at hle
  have htake : (text.take line.value).length = line.value := by
    rw [List.length_take]
    omega
  rw [linesOf_long hlong, List.intercalate_cons_of_ne_nil (linesOf_ne_nil line _),
    List.append_assoc, (base64_decode_iff _).2.2]
  refine ⟨line.value, ?_, not_fits_feed (Nat.mod_eq_zero_of_dvd hline) ?_⟩
  · rw [inChunks]
    simp only [List.length_append, List.length_singleton, htake]
    split
    next h => omega
    next h => omega
  · rw [List.getD_eq_getElem?_getD, List.getElem?_append_right (Nat.le_of_eq htake), htake,
      Nat.sub_self]
    rfl

theorem base64Decode_base64Text (s : List UInt8) : base64Decode (base64Text s) = .ok s := by
  have hplain := base64Decode_text false s
  rwa [urlChar_plain] at hplain

theorem eq_nil_of_base64Text {s : List UInt8} (h : base64Text s = []) : s = [] := by
  have hdecode := base64Decode_base64Text s
  rw [h] at hdecode
  exact (Except.ok.inj hdecode).symm

/-- With its line feeds in place a text of whole quanta is taken back when it has one line. -/
theorem decode_with_line_breaks {line : LineLength} (hdvd : 4 ∣ line.value) {fuel : Nat}
    {s text : List UInt8} (h : encodeWithLineBreaks fuel line s = some text) :
    base64DecodeLines text false =
      if line.value < (base64Text s).length then .error .invalid else .ok s := by
  obtain ⟨-, rfl⟩ := encodeWithLineBreaks_eq_some h
  rw [base64DecodeLines, if_neg Bool.false_ne_true]
  split
  next hnone =>
    have hlines := filter_lines line (base64Text_no_feed s)
    rw [List.isEmpty_iff.mp hnone] at hlines
    obtain rfl := eq_nil_of_base64Text hlines.symm
    rfl
  next hsome =>
    split
    next hlong => exact base64Decode_lines hdvd (base64Text_no_feed s) hlong
    next hshort =>
      rw [linesOf_short hshort, List.intercalate_singleton, base64Decode_base64Text]

/-- With line breaks `base64_encode` returns for the inputs that it returns for without. The text
is the same in full lines and a last one, which `base64_decode` takes back to the input when it
removes the line feeds, and otherwise, where lines are whole quanta, only when there is one line.
Those of `encode_pem` and `encode_mime` are. -/
theorem encode_with_line_breaks_round_trip (line : LineLength) (s : List UInt8) :
    ((∃ fuel text, encodeWithLineBreaks fuel line s = some text) ↔ s.length < 2 ^ 32) ∧
    (∀ fuel text, encodeWithLineBreaks fuel line s = some text →
      (∃ full last, text = [0x0A].intercalate (full ++ [last]) ∧
        (full ++ [last]).flatten = base64Text s ∧
        (∀ l ∈ full, l.length = line.value) ∧ last.length ≤ line.value ∧ (last = [] → s = [])) ∧
      base64DecodeLines text true = .ok s ∧
      (4 ∣ line.value → base64DecodeLines text false =
        if line.value < (base64Text s).length then .error .invalid else .ok s)) ∧
    (∀ fuel text, encodePem fuel s = some text → base64DecodeLines text false =
      if pemLine.value < (base64Text s).length then .error .invalid else .ok s) ∧
    ∀ fuel text, encodeMime fuel s = some text → base64DecodeLines text false =
      if mimeLine.value < (base64Text s).length then .error .invalid else .ok s := by
  refine ⟨⟨?_, fun h => ?_⟩, ?_, fun fuel text h => decode_with_line_breaks dvd_lines.1 h,
    fun fuel text h => decode_with_line_breaks dvd_lines.2 h⟩
  · rintro ⟨fuel, text, h⟩
    exact (encodeWithLineBreaks_eq_some h).1
  · exact ⟨s.length + 1, _, congrArg (Option.map _) (base64Encode_returns h false)⟩
  · intro fuel text h
    refine ⟨?_, ?_, fun hdvd => decode_with_line_breaks hdvd h⟩
    · obtain ⟨-, rfl⟩ := encodeWithLineBreaks_eq_some h
      obtain ⟨full, last, heq, hflat, hfull, hlast, hnil⟩ := linesOf_lengths line (base64Text s)
      exact ⟨full, last, by rw [heq], hflat, hfull, hlast,
        fun h => eq_nil_of_base64Text (hnil h)⟩
    · obtain ⟨-, rfl⟩ := encodeWithLineBreaks_eq_some h
      have hlines := filter_lines line (base64Text_no_feed s)
      rw [base64DecodeLines, if_pos rfl, hlines, base64Decode_base64Text]
      split
      next hnone =>
        rw [List.isEmpty_iff.mp hnone] at hlines
        rw [eq_nil_of_base64Text hlines.symm]
      next hsome => rfl

end ModAudioStream
