import ModAudioStream.Startup
import ModAudioStream.Playback

namespace ModAudioStream

/-- The bytes of an ASCII literal of the source. -/
def ascii (s : String) : List UInt8 := s.toList.map fun c => UInt8.ofNat c.toNat

/-- `isdigit` in the C locale. -/
def isDigit (c : UInt8) : Bool := 0x30 ≤ c && c ≤ 0x39

/-- `isalnum` in the C locale. -/
def isAlnum (c : UInt8) : Bool :=
  isDigit c || (0x41 ≤ c && c ≤ 0x5A) || (0x61 ≤ c && c ≤ 0x7A)

/-- `isspace` in the C locale. -/
def isSpace (c : UInt8) : Bool := c == 0x20 || (0x09 ≤ c && c ≤ 0x0D)

/-- `tolower` in the C locale. -/
def toLower (c : UInt8) : UInt8 := if 0x41 ≤ c && c ≤ 0x5A then c + 0x20 else c

/-- `strchr`, as an offset. -/
def strchr (s : List UInt8) (c : UInt8) : Option Nat := s.findIdx? (· == c)

def digitsValue (digits : List UInt8) : Nat :=
  digits.foldl (fun n d => 10 * n + (d.toNat - 0x30)) 0

def unsign : List UInt8 → Bool × List UInt8
  | c :: s => if c = 0x2D then (true, s) else if c = 0x2B then (false, s) else (false, c :: s)
  | [] => (false, [])

/-- `strtol` in base 10, with a `long` of 64 bits. -/
def strtol (s : List UInt8) : Int :=
  let t := unsign (s.dropWhile isSpace)
  let n : Int := digitsValue (t.2.takeWhile isDigit)
  max (-2 ^ 63) (min (2 ^ 63 - 1) (if t.1 then -n else n))

def atoi (s : List UInt8) : Int := int32 (strtol s)

theorem isSpace_of_isDigit {c : UInt8} (h : isDigit c = true) : isSpace c = false := by
  simp only [isDigit, Bool.and_eq_true, decide_eq_true_eq] at h
  simp only [isSpace, Bool.or_eq_false_iff, beq_eq_false_iff_ne, Bool.and_eq_false_iff,
    decide_eq_false_iff_not]
  obtain ⟨hlo, -⟩ := h
  rw [UInt8.le_iff_toNat_le] at hlo
  constructor
  · rintro rfl
    exact absurd hlo (by decide)
  · right
    rw [UInt8.le_iff_toNat_le]
    have h9 : (0x30 : UInt8).toNat = 48 := rfl
    have hD : (0x0D : UInt8).toNat = 13 := rfl
    omega

theorem unsign_of_isDigit {c : UInt8} (h : isDigit c = true) (s : List UInt8) :
    unsign (c :: s) = (false, c :: s) := by
  have hne : c ≠ 0x2D ∧ c ≠ 0x2B := by
    constructor <;> rintro rfl <;> cases h
  simp [unsign, hne.1, hne.2]

theorem digitsValue_snoc (digits : List UInt8) (d : UInt8) :
    digitsValue (digits ++ [d]) = 10 * digitsValue digits + (d.toNat - 0x30) := by
  simp [digitsValue]

theorem digitsValue_append_ge (digits more : List UInt8) :
    10 ^ more.length * digitsValue digits ≤ digitsValue (digits ++ more) := by
  induction more using List.reverseRecOn with
  | nil => simp
  | append_singleton more d ih =>
    rw [← List.append_assoc, digitsValue_snoc, List.length_append, List.length_singleton,
      Nat.pow_succ]
    have h10 : 10 ^ more.length * 10 * digitsValue digits =
        10 * (10 ^ more.length * digitsValue digits) := by
      rw [Nat.mul_comm (10 ^ more.length), Nat.mul_assoc]
    omega

theorem strtol_digits {digits rest : List UInt8} (hd : ∀ d ∈ digits, isDigit d = true)
    (hrest : ∀ c ∈ rest.head?, isDigit c = false) (hne : digits ≠ []) :
    strtol (digits ++ rest) = min (2 ^ 63 - 1) (digitsValue digits : Int) := by
  obtain ⟨c, cs, rfl⟩ := List.exists_cons_of_ne_nil hne
  have hc := hd c (by simp)
  have htake : (c :: cs ++ rest).takeWhile isDigit = c :: cs := by
    rw [List.takeWhile_append_of_pos hd]
    cases rest with
    | nil => simp
    | cons r rest => simp [hrest r (by simp)]
  have hdrop : (c :: cs ++ rest).dropWhile isSpace = c :: (cs ++ rest) := by
    rw [List.cons_append, List.dropWhile_cons, if_neg (by simp [isSpace_of_isDigit hc])]
  unfold strtol
  rw [hdrop, unsign_of_isDigit hc]
  simp only [Bool.false_eq_true, if_false]
  rw [← List.cons_append, htake]
  omega

theorem atoi_digits {digits rest : List UInt8} (hd : ∀ d ∈ digits, isDigit d = true)
    (hrest : ∀ c ∈ rest.head?, isDigit c = false) (hne : digits ≠ [])
    (hlt : digitsValue digits < 2 ^ 31) : atoi (digits ++ rest) = digitsValue digits := by
  rw [atoi, strtol_digits hd hrest hne, Int.min_eq_right (by omega), int32_eq (by omega) (by omega)]

/-- No digits, no number. -/
theorem atoi_of_no_digit {s : List UInt8} (hs : ∀ c ∈ s.head?, c = 0x2F) : atoi s = 0 := by
  cases s with
  | nil => rfl
  | cons c s =>
    obtain rfl : c = 0x2F := hs c (by simp)
    simp [atoi, strtol, unsign, isSpace, isDigit, digitsValue, int32]

end ModAudioStream
