/-!
# The coordinate field and the scalars of secp256k1
-/

namespace CoinSpend.Secp256k1

/-- The prime of the coordinate field. -/
def fieldPrime : Nat :=
  0xfffffffffffffffffffffffffffffffffffffffffffffffffffffffefffffc2f

/-- The number of points of the curve, which is prime. -/
def groupOrder : Nat :=
  0xfffffffffffffffffffffffffffffffebaaedce6af48a03bbfd25e8cd0364141

abbrev Coordinate := Fin fieldPrime

abbrev Scalar := Fin groupOrder

/-- The remainder of a number. -/
def Coordinate.ofNat (number : Nat) : Coordinate :=
  ⟨number % fieldPrime, Nat.mod_lt number (by decide)⟩

/-- The remainder of a number. -/
def Scalar.ofNat (number : Nat) : Scalar :=
  ⟨number % groupOrder, Nat.mod_lt number (by decide)⟩

instance (number : Nat) : OfNat Coordinate number := ⟨.ofNat number⟩

instance (number : Nat) : OfNat Scalar number := ⟨.ofNat number⟩

/-- The 256 low binary digits of a number, most significant first. -/
def binaryDigits (number : Nat) : List Bool :=
  (List.range 256).reverse.map number.testBit

/-- A power, for exponents below 2^256. -/
def power {Number : Type} [Mul Number] [OfNat Number 1] (base : Number) (exponent : Nat) :
    Number :=
  (binaryDigits exponent).foldl
    (fun result digit => if digit then result * result * base else result * result) 1

/-- The inverse of a coordinate; zero is sent to zero. -/
def Coordinate.inverse (value : Coordinate) : Coordinate :=
  power value (fieldPrime - 2)

/-- The inverse of a scalar; zero is sent to zero. -/
def Scalar.inverse (value : Scalar) : Scalar :=
  power value (groupOrder - 2)

/-- A square root, if there is one.  The prime is 3 modulo 4. -/
def squareRoot? (value : Coordinate) : Option Coordinate :=
  let root := power value ((fieldPrime + 1) / 4)
  if root * root = value then some root else none

/-- Recognize a number below the prime. -/
def coordinate? (number : Nat) : Option Coordinate :=
  if small : number < fieldPrime then some ⟨number, small⟩ else none

end CoinSpend.Secp256k1
