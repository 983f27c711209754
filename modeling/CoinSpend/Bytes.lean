/-!
# Byte strings

Scripts, keys, signatures and wire encodings are lists of bytes, so that their
laws are statements about append.  Integers are written least significant byte
first unless a name says otherwise.
-/

namespace CoinSpend

abbrev Bytes := List UInt8

namespace Bytes

/-- Whether at least `count` bytes are present.  It looks no further than that. -/
def hasAtLeast : Bytes → Nat → Bool
  | _, 0 => true
  | [], _ + 1 => false
  | _ :: rest, count + 1 => hasAtLeast rest count

theorem hasAtLeast_eq_true_iff (bytes : Bytes) (count : Nat) :
    bytes.hasAtLeast count = true ↔ count ≤ bytes.length := by
  induction bytes generalizing count with
  | nil => cases count <;> simp [hasAtLeast]
  | cons byte rest ih => cases count <;> simp [hasAtLeast, ih]

/-- The `width` low bytes of a number, least significant first. -/
def littleEndian : Nat → Nat → Bytes
  | 0, _ => []
  | width + 1, number => UInt8.ofNat number :: littleEndian width (number / 256)

@[simp] theorem length_littleEndian (width number : Nat) :
    (littleEndian width number).length = width := by
  induction width generalizing number with
  | zero => rfl
  | succ width ih => simp [littleEndian, ih]

/-- The number whose bytes, least significant first, are given. -/
def toNat : Bytes → Nat
  | [] => 0
  | byte :: rest => byte.toNat + 256 * toNat rest

theorem littleEndian_toNat (bytes : Bytes) :
    littleEndian bytes.length (toNat bytes) = bytes := by
  induction bytes with
  | nil => rfl
  | cons byte rest ih =>
      have small := byte.toNat_lt
      have quotient : (byte.toNat + 256 * toNat rest) / 256 = toNat rest := by omega
      have first : UInt8.ofNat (byte.toNat + 256 * toNat rest) = byte := by
        apply UInt8.toNat_inj.mp
        rw [UInt8.toNat_ofNat']
        omega
      simp only [List.length_cons, littleEndian, toNat, first, quotient, ih]

/-- The `width` low bytes of a number, most significant first. -/
def bigEndian (width number : Nat) : Bytes :=
  (littleEndian width number).reverse

/-- The number whose bytes, most significant first, are given. -/
def bigEndianNat (bytes : Bytes) : Nat :=
  bytes.foldl (fun number byte => 256 * number + byte.toNat) 0

end Bytes

end CoinSpend
