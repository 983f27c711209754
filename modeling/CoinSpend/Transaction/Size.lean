import CoinSpend.Limits
import CoinSpend.Sum
import CoinSpend.Transaction.Basic
import CoinSpend.Wire.CompactSize

/-!
# Sizes of transactions

Sizes are computed from lengths, without writing the transaction.  A byte outside
the witness weighs four, a byte of the witness one.
-/

namespace CoinSpend

/-- Size of a witness on the wire. -/
def witnessSize (witness : Witness) : Nat :=
  Wire.compactSizeLength witness.length +
    sumOf (fun item => Wire.lengthPrefixedSize item.length) witness

def Input.size (input : Input) : Nat :=
  32 + 4 + Wire.lengthPrefixedSize input.unlocking.length + 4

def Output.size (output : Output) : Nat :=
  8 + Wire.lengthPrefixedSize output.locking.length

namespace Transaction

/-- Size without witnesses. -/
def baseSize (transaction : Transaction) : Nat :=
  4 + Wire.compactSizeLength transaction.inputs.length +
    sumOf Input.size transaction.inputs +
    Wire.compactSizeLength transaction.outputs.length +
    sumOf Output.size transaction.outputs + 4

/-- Size of marker, flag and witnesses. -/
def extraSize (transaction : Transaction) : Nat :=
  if transaction.usesEnvelope then
    2 + sumOf (fun input => witnessSize input.witness) transaction.inputs
  else
    0

def size (transaction : Transaction) : Nat :=
  transaction.baseSize + transaction.extraSize

def weight (transaction : Transaction) : Nat :=
  transaction.baseSize * (Limits.witnessScale - 1) + transaction.size

/-- The weight in bytes of four, rounded up. -/
def virtualSize (transaction : Transaction) : Nat :=
  (transaction.weight + Limits.witnessScale - 1) / Limits.witnessScale

end Transaction

end CoinSpend
