import CoinSpend.Secp256k1.Field

/-!
# Points of secp256k1

The curve is `y² = x³ + 7`.  Sums are computed in projective coordinates, where
`(x, y, z)` stands for `(x/z², y/z³)` and `z = 0` for the neutral element.
-/

namespace CoinSpend.Secp256k1

/-- A point other than the neutral element. -/
structure AffinePoint where
  x : Coordinate
  y : Coordinate
  deriving DecidableEq

structure Point where
  x : Coordinate
  y : Coordinate
  z : Coordinate

def AffinePoint.toPoint (point : AffinePoint) : Point :=
  ⟨point.x, point.y, 1⟩

namespace Point

def neutral : Point :=
  ⟨1, 1, 0⟩

def double (point : Point) : Point :=
  let square := point.y * point.y
  let chord := 4 * point.x * square
  let slope := 3 * point.x * point.x
  let x := slope * slope - 2 * chord
  ⟨x, slope * (chord - x) - 8 * square * square, 2 * point.y * point.z⟩

def add (left right : Point) : Point :=
  if left.z = 0 then
    right
  else if right.z = 0 then
    left
  else
    let leftSquare := left.z * left.z
    let rightSquare := right.z * right.z
    let leftX := left.x * rightSquare
    let rightX := right.x * leftSquare
    let leftY := left.y * right.z * rightSquare
    let rightY := right.y * left.z * leftSquare
    if leftX = rightX then
      if leftY = rightY then double left else neutral
    else
      let run := rightX - leftX
      let rise := rightY - leftY
      let runSquare := run * run
      let runCube := runSquare * run
      let middle := leftX * runSquare
      let x := rise * rise - runCube - 2 * middle
      ⟨x, rise * (middle - x) - leftY * runCube, run * left.z * right.z⟩

/-- The first coordinate of a point other than the neutral element. -/
def affineX? (point : Point) : Option Coordinate :=
  if point.z = 0 then
    none
  else
    let scale := Coordinate.inverse point.z
    some (point.x * (scale * scale))

def generator : Point :=
  ⟨0x79be667ef9dcbbac55a06295ce870b07029bfcdb2dce28d959f2815b16f81798,
   0x483ada7726a3c4655da4fbfc0e1108a8fd17b448a68554199c47d08ffb10d4b8, 1⟩

/-- Add a point if a binary digit is set. -/
def addIf (digit : Bool) (sum point : Point) : Point :=
  if digit then add sum point else sum

/-- The sum of two multiples, `first · left + second · right`. -/
def combine (first : Scalar) (left : Point) (second : Scalar) (right : Point) : Point :=
  ((binaryDigits first.val).zip (binaryDigits second.val)).foldl
    (fun sum digits => addIf digits.2 (addIf digits.1 (double sum) left) right) neutral

end Point

/-- Whether a pair of coordinates satisfies the equation of the curve. -/
def onCurve (x y : Coordinate) : Bool :=
  y * y == x * x * x + 7

/-- The point with a given first coordinate and parity of the second. -/
def liftX? (x : Coordinate) (odd : Bool) : Option AffinePoint :=
  (squareRoot? (x * x * x + 7)).map fun root =>
    if (root.val % 2 == 1) == odd then ⟨x, root⟩ else ⟨x, 0 - root⟩

end CoinSpend.Secp256k1
