import Mathlib.Data.List.Basic
import Mathlib.Tactic.Ring

namespace ModAudioStream

/-- Big-endian value of a byte list, one shift and one `or` a byte. -/
def beNat (bytes : List UInt8) : Nat :=
  bytes.foldl (fun n b => n <<< 8 ||| b.toNat) 0

/-- The low `k` bytes of a number, most significant byte first. -/
def beBytes : Nat → Nat → List UInt8
  | 0, _ => []
  | k + 1, n => UInt8.ofNat (n >>> (k * 8) &&& 0xFF) :: beBytes k n

theorem beBytes_length (k n : Nat) : (beBytes k n).length = k := by
  induction k with
  | zero => rfl
  | succ k ih => simp [beBytes, ih]

theorem take_beBytes_append (k n : Nat) (more : List UInt8) :
    (beBytes k n ++ more).take k = beBytes k n := by
  rw [List.take_append_of_le_length (by rw [beBytes_length]),
    List.take_of_length_le (by rw [beBytes_length])]

theorem shift_or_byte (n : Nat) (b : UInt8) : n <<< 8 ||| b.toNat = n * 256 + b.toNat := by
  rw [← Nat.shiftLeft_add_eq_or_of_lt b.toNat_lt n, Nat.shiftLeft_eq]

theorem toNat_low_byte (n : Nat) : (UInt8.ofNat (n &&& 0xFF)).toNat = n % 256 := by
  have hand : n &&& 0xFF = n % 256 := Nat.and_two_pow_sub_one_eq_mod n 8
  rw [UInt8.toNat_ofNat', hand]
  exact Nat.mod_mod n 256

theorem foldl_beBytes (k n acc : Nat) :
    (beBytes k n).foldl (fun m b => m <<< 8 ||| b.toNat) acc =
      acc * 256 ^ k + n % 256 ^ k := by
  induction k generalizing acc with
  | zero => simp [beBytes, Nat.mod_one]
  | succ k ih =>
    have hdigit : n >>> (k * 8) = n / 256 ^ k := by
      rw [Nat.shiftRight_eq_div_pow, Nat.mul_comm, Nat.pow_mul]
    rw [beBytes, List.foldl_cons, ih, shift_or_byte, toNat_low_byte, hdigit, Nat.pow_succ,
      Nat.mod_mul]
    ring

theorem beNat_beBytes {k n : Nat} (h : n < 256 ^ k) : beNat (beBytes k n) = n := by
  rw [beNat, foldl_beBytes, Nat.zero_mul, Nat.zero_add, Nat.mod_eq_of_lt h]

theorem foldl_beNat_lt (bytes : List UInt8) {acc k : Nat} (h : acc < 256 ^ k) :
    bytes.foldl (fun n b => n <<< 8 ||| b.toNat) acc < 256 ^ (k + bytes.length) := by
  induction bytes generalizing acc k with
  | nil => exact h
  | cons b bytes ih =>
    have hb := b.toNat_lt
    have hstep : acc <<< 8 ||| b.toNat < 256 ^ (k + 1) := by
      rw [shift_or_byte, Nat.pow_succ]
      omega
    have hh := ih hstep
    rwa [List.length_cons, show k + (bytes.length + 1) = k + 1 + bytes.length by omega]

theorem beNat_lt (bytes : List UInt8) : beNat bytes < 256 ^ bytes.length := by
  have hzero : 0 < 256 ^ 0 := by simp
  have hh := foldl_beNat_lt bytes hzero
  rwa [Nat.zero_add] at hh

def xorKey (key : Nat → UInt8) (bytes : List UInt8) : List UInt8 :=
  bytes.mapIdx fun i b => b ^^^ key i

@[simp] theorem xorKey_length (key : Nat → UInt8) (bytes : List UInt8) :
    (xorKey key bytes).length = bytes.length := by
  simp [xorKey]

@[simp] theorem xorKey_xorKey (key : Nat → UInt8) (bytes : List UInt8) :
    xorKey key (xorKey key bytes) = bytes := by
  have hid : (fun i => (fun b => b ^^^ key i) ∘ fun b => b ^^^ key i) =
      fun (_ : Nat) (b : UInt8) => b := by
    funext i b
    rw [Function.comp_apply, UInt8.xor_assoc]
    simp
  rw [xorKey, xorKey, List.mapIdx_mapIdx, hid]
  simp [List.mapIdx_eq_zipIdx_map]

theorem flag_or_toNat {n : Nat} (h : n < 128) :
    ((0x80 ||| UInt8.ofNat n) &&& 0x7F).toNat = n := by
  have all : ∀ m : Fin 128, ((0x80 ||| UInt8.ofNat m.val) &&& 0x7F).toNat = m.val := by decide
  exact all ⟨n, h⟩

theorem flag_or_set (b : UInt8) : (0x80 ||| b) &&& 0x80 ≠ 0 := by
  intro h
  have hbits : (0x80 ||| b).toBitVec &&& 0x80#8 = 0#8 := congrArg UInt8.toBitVec h
  have hbit := congrArg (fun v : BitVec 8 => v.getLsbD 7) hbits
  simp at hbit

/-- A fact about all bytes, by their values. -/
theorem uint8_all {P : UInt8 → Prop} (h : ∀ n < 256, P (UInt8.ofNat n)) (c : UInt8) : P c := by
  have hc := h c.toNat c.toNat_lt
  rwa [UInt8.ofNat_toNat] at hc

end ModAudioStream
