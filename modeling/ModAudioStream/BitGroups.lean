import Mathlib.Data.List.Basic
import Mathlib.Algebra.Ring.Nat

namespace ModAudioStream

/-- The low `w` bits of a number, most significant bit first. -/
def bitsOf : Nat → Nat → List Bool
  | 0, _ => []
  | w + 1, n => n.testBit w :: bitsOf w n

def ofBits (bits : List Bool) : Nat := bits.foldl (fun n b => 2 * n + b.toNat) 0

/-- The values of the first `k` groups of `w` bits. -/
def groupsOf (w : Nat) : Nat → List Bool → List Nat
  | 0, _ => []
  | k + 1, bits => ofBits (bits.take w) :: groupsOf w k (bits.drop w)

/-- Zero bits on the right, up to an integral number of groups. -/
def padBits (w : Nat) (bits : List Bool) : List Bool :=
  bits ++ List.replicate ((w - bits.length % w) % w) false

/-- The values of the groups of `w` bits, the last one padded. -/
def groups (w : Nat) (bits : List Bool) : List Nat :=
  groupsOf w ((padBits w bits).length / w) (padBits w bits)

@[simp] theorem bitsOf_length (w n : Nat) : (bitsOf w n).length = w := by
  induction w with
  | zero => rfl
  | succ w ih => rw [bitsOf, List.length_cons, ih]

theorem bitsOf_zero (w : Nat) : bitsOf w 0 = List.replicate w false := by
  induction w with
  | zero => rfl
  | succ w ih => rw [bitsOf, ih, Nat.zero_testBit, List.replicate_succ]

theorem bitsOf_add (a b n : Nat) : bitsOf (a + b) n = bitsOf a (n / 2 ^ b) ++ bitsOf b n := by
  induction a with
  | zero => rw [Nat.zero_add, bitsOf, List.nil_append]
  | succ a ih => rw [Nat.add_right_comm, bitsOf, bitsOf, ih, Nat.testBit_div_two_pow,
      List.cons_append]

theorem bitsOf_low {w b : Nat} (h : w ≤ b) (x y : Nat) :
    bitsOf w (2 ^ b * x + y) = bitsOf w y := by
  induction w with
  | zero => rfl
  | succ w ih =>
    have hbit : (2 ^ b * x + y).testBit w = y.testBit w := by
      rw [Nat.testBit_eq_decide_div_mod_eq, Nat.testBit_eq_decide_div_mod_eq]
      obtain ⟨c, rfl⟩ := Nat.exists_eq_add_of_le h
      have hpow : 2 ^ (w + 1 + c) * x = 2 ^ w * (2 * (2 ^ c * x)) := by
        rw [Nat.pow_add, Nat.pow_succ]
        simp only [Nat.mul_assoc]
      rw [hpow, Nat.mul_add_div (Nat.two_pow_pos w), Nat.mul_add_mod]
    rw [bitsOf, bitsOf, hbit, ih (by omega)]

/-- Bits side by side are the bits of the shifted sum. -/
theorem bitsOf_append (a x : Nat) {b y : Nat} (hy : y < 2 ^ b) :
    bitsOf a x ++ bitsOf b y = bitsOf (a + b) (2 ^ b * x + y) := by
  have hhigh : (2 ^ b * x + y) / 2 ^ b = x := by
    rw [Nat.mul_add_div (Nat.two_pow_pos b), Nat.div_eq_of_lt hy, Nat.add_zero]
  rw [bitsOf_add, hhigh, bitsOf_low (Nat.le_refl b)]

theorem foldl_bits (bits : List Bool) (n : Nat) :
    bits.foldl (fun n b => 2 * n + b.toNat) n = 2 ^ bits.length * n + ofBits bits := by
  induction bits generalizing n with
  | nil => simp [ofBits]
  | cons b bits ih =>
    have hfirst : ofBits (b :: bits) = 2 ^ bits.length * b.toNat + ofBits bits := by
      rw [ofBits, List.foldl_cons, Nat.mul_zero, Nat.zero_add, ih]
    rw [List.foldl_cons, ih, hfirst, List.length_cons, Nat.pow_succ, Nat.mul_add,
      Nat.mul_assoc, Nat.add_assoc]

theorem ofBits_cons (b : Bool) (bits : List Bool) :
    ofBits (b :: bits) = 2 ^ bits.length * b.toNat + ofBits bits := by
  rw [ofBits, List.foldl_cons, Nat.mul_zero, Nat.zero_add, foldl_bits]

theorem ofBits_bitsOf (w n : Nat) : ofBits (bitsOf w n) = n % 2 ^ w := by
  induction w with
  | zero => rw [Nat.pow_zero, Nat.mod_one]; rfl
  | succ w ih => rw [bitsOf, ofBits_cons, bitsOf_length, ih, Nat.toNat_testBit, Nat.pow_succ,
      Nat.mod_mul, Nat.add_comm]

theorem groupsOf_append {w k : Nat} {front : List Bool} (h : front.length = w * k) (m : Nat)
    (rest : List Bool) :
    groupsOf w (k + m) (front ++ rest) = groupsOf w k front ++ groupsOf w m rest := by
  induction k generalizing front with
  | zero =>
    have hnil : front = [] := List.eq_nil_of_length_eq_zero (by rw [h, Nat.mul_zero])
    rw [hnil, Nat.zero_add, List.nil_append, groupsOf, List.nil_append]
  | succ k ih =>
    have hle : w ≤ front.length := by
      rw [h, Nat.mul_succ]
      omega
    have hdrop : (front.drop w).length = w * k := by
      rw [List.length_drop, h, Nat.mul_succ, Nat.add_sub_cancel]
    rw [Nat.add_right_comm, groupsOf, groupsOf, List.take_append_of_le_length hle,
      List.drop_append_of_le_length hle, ih hdrop, List.cons_append]

/-- The groups of a number's bits are its digits in base `2 ^ w`. -/
theorem groupsOf_bitsOf (w k n : Nat) :
    groupsOf w k (bitsOf (w * k) n) =
      (List.range k).reverse.map fun i => n / 2 ^ (w * i) % 2 ^ w := by
  induction k with
  | zero => rfl
  | succ k ih =>
    have hsplit : bitsOf (w * (k + 1)) n = bitsOf w (n / 2 ^ (w * k)) ++ bitsOf (w * k) n := by
      rw [Nat.mul_succ, Nat.add_comm, bitsOf_add]
    have htake : (bitsOf w (n / 2 ^ (w * k)) ++ bitsOf (w * k) n).take w =
        bitsOf w (n / 2 ^ (w * k)) := List.take_left' (bitsOf_length w _)
    have hdrop : (bitsOf w (n / 2 ^ (w * k)) ++ bitsOf (w * k) n).drop w = bitsOf (w * k) n :=
      List.drop_left' (bitsOf_length w _)
    rw [hsplit, groupsOf, htake, hdrop, ofBits_bitsOf, ih, List.range_succ, List.reverse_append,
      List.reverse_singleton, List.singleton_append, List.map_cons]

theorem lacking_eq {w k p n : Nat} (hp : p < w) (h : n + p = w * k) : (w - n % w) % w = p := by
  have hlt : n % w < w := Nat.mod_lt _ (by omega)
  have hmod : (n % w + p) % w = 0 := by
    have hsum : (n + p) % w = 0 := by rw [h, Nat.mul_mod_right]
    rwa [Nat.add_mod, Nat.mod_eq_of_lt hp] at hsum
  by_cases hzero : n % w = 0
  · rw [hzero, Nat.zero_add, Nat.mod_eq_of_lt hp] at hmod
    rw [hzero, Nat.sub_zero, Nat.mod_self, hmod]
  · have hge : w ≤ n % w + p := by
      by_contra hless
      rw [Nat.mod_eq_of_lt (by omega)] at hmod
      omega
    rw [Nat.mod_eq_sub_mod hge, Nat.mod_eq_of_lt (by omega)] at hmod
    rw [Nat.mod_eq_of_lt (by omega)]
    omega

theorem padBits_of_length {w k p : Nat} {bits : List Bool} (hp : p < w)
    (h : bits.length + p = w * k) : padBits w bits = bits ++ List.replicate p false := by
  rw [padBits, lacking_eq hp h]

theorem groups_of_length {w k p : Nat} {bits : List Bool} (hp : p < w)
    (h : bits.length + p = w * k) :
    groups w bits = groupsOf w k (bits ++ List.replicate p false) := by
  have hlen : (bits ++ List.replicate p false).length = w * k := by
    rw [List.length_append, List.length_replicate, h]
  rw [groups, padBits_of_length hp h, hlen, Nat.mul_div_cancel_left k (by omega)]

theorem groups_append {w k : Nat} (hw : 0 < w) {front : List Bool} (h : front.length = w * k)
    (rest : List Bool) : groups w (front ++ rest) = groupsOf w k front ++ groups w rest := by
  have hpad : padBits w (front ++ rest) = front ++ padBits w rest := by
    rw [padBits, padBits, List.length_append, h, Nat.mul_add_mod, List.append_assoc]
  have hcount : (padBits w (front ++ rest)).length / w = k + (padBits w rest).length / w := by
    rw [hpad, List.length_append, h, Nat.mul_add_div hw]
  rw [groups, hcount, hpad, groupsOf_append h, groups]

theorem groups_bitsOf {w m k p : Nat} (hp : p < w) (h : m + p = w * k) (n : Nat) :
    groups w (bitsOf m n) =
      (List.range k).reverse.map fun i => 2 ^ p * n / 2 ^ (w * i) % 2 ^ w := by
  have hbits : bitsOf m n ++ List.replicate p false = bitsOf (w * k) (2 ^ p * n) := by
    rw [← bitsOf_zero, bitsOf_append m n (Nat.two_pow_pos p), h, Nat.add_zero]
  rw [groups_of_length hp (by rw [bitsOf_length, h]), hbits, groupsOf_bitsOf]

end ModAudioStream
