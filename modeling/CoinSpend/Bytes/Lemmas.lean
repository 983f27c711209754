import Mathlib.Algebra.Ring.Nat
import Mathlib.Tactic.Common
import CoinSpend.Bytes

/-!
# Numbers as bytes

Reading the bytes of a number gives the number back, up to what its width can
hold, and a byte string never stands for more than that.
-/

namespace CoinSpend.Bytes

theorem toNat_littleEndian (width number : Nat) :
    toNat (littleEndian width number) = number % 256 ^ width := by
  induction width generalizing number with
  | zero => simp [littleEndian, toNat, Nat.mod_one]
  | succ width ih =>
      have first : (UInt8.ofNat number).toNat = number % 256 := by simp
      simp only [littleEndian, toNat, ih, first]
      rw [Nat.pow_succ', Nat.mod_mul]

theorem toNat_lt (bytes : Bytes) : toNat bytes < 256 ^ bytes.length := by
  induction bytes with
  | nil => simp [toNat]
  | cons byte rest ih =>
      have small := byte.toNat_lt
      simp only [toNat, List.length_cons, Nat.pow_succ]
      omega

/-- What holds of the numbers below a bound holds of the bytes below it. -/
theorem of_table {bound : Nat} {property : UInt8 → Prop} {byte : UInt8}
    (small : byte.toNat < bound) (table : ∀ number : Fin bound, property (.ofNat number)) :
    property byte := by
  have found := table ⟨byte.toNat, small⟩
  rwa [UInt8.ofNat_toNat] at found

end CoinSpend.Bytes
