import Mathlib.Data.Nat.Bitwise
import Mathlib.Tactic.Ring

/-! # Bytes as integers

A list of bytes encodes a number, least significant byte first. Numbers of one length xor as their bytes do.
-/

namespace ByteInteger

/-- The number that a list of bytes encodes. -/
def ofBytes : List UInt8 → ℕ
  | [] => 0
  | byte :: rest => 2 ^ 8 * ofBytes rest + byte.toNat

/-- The lowest bytes of a number. -/
def toBytes : ℕ → ℕ → List UInt8
  | 0, _ => []
  | length + 1, number => UInt8.ofNat number :: toBytes length (number / 2 ^ 8)

theorem ofBytes_lt (bytes : List UInt8) : ofBytes bytes < (2 ^ 8) ^ bytes.length := by
  induction bytes with
  | nil => simp [ofBytes]
  | cons byte rest ih =>
    have small := byte.toNat_lt
    rw [ofBytes, List.length_cons, pow_succ (2 ^ 8)]
    omega

theorem toBytes_ofBytes (bytes : List UInt8) : toBytes bytes.length (ofBytes bytes) = bytes := by
  induction bytes with
  | nil => rfl
  | cons byte rest ih =>
    have small := byte.toNat_lt
    have high : (2 ^ 8 * ofBytes rest + byte.toNat) / 2 ^ 8 = ofBytes rest := by omega
    have low : UInt8.ofNat (2 ^ 8 * ofBytes rest + byte.toNat) = byte := by
      rw [← UInt8.toNat_inj, UInt8.toNat_ofNat']
      omega
    rw [ofBytes, List.length_cons, toBytes, high, low, ih]

/-- The lowest byte does not meet the others in a xor. -/
private theorem xor_digits {first second : ℕ} (low : first < 2 ^ 8) (other : second < 2 ^ 8)
    (high rest : ℕ) :
    (2 ^ 8 * high + first) ^^^ (2 ^ 8 * rest + second) = 2 ^ 8 * (high ^^^ rest) + (first ^^^ second) := by
  apply Nat.eq_of_testBit_eq
  intro place
  rw [Nat.testBit_xor, Nat.testBit_two_pow_mul_add _ low, Nat.testBit_two_pow_mul_add _ other,
    Nat.testBit_two_pow_mul_add _ (Nat.xor_lt_two_pow low other)]
  split
  · rw [Nat.testBit_xor]
  · rw [Nat.testBit_xor]

theorem ofBytes_zipWith_xor {first second : List UInt8} (same : first.length = second.length) :
    ofBytes (List.zipWith (· ^^^ ·) first second) = ofBytes first ^^^ ofBytes second := by
  induction first generalizing second with
  | nil =>
    cases second with
    | nil => rfl
    | cons byte rest => cases same
  | cons byte rest ih =>
    cases second with
    | nil => cases same
    | cons other others =>
      rw [List.zipWith_cons_cons, ofBytes, ofBytes, ofBytes, ih (Nat.succ.inj same), UInt8.toNat_xor,
        xor_digits byte.toNat_lt other.toNat_lt]

end ByteInteger
