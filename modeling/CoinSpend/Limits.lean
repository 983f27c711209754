/-!
# Numbers fixed by the protocol
-/

namespace CoinSpend.Limits

/-- Base units in one coin. -/
def unitsPerCoin : Int := 100000000

/-- The most base units that can ever exist. -/
def maxMoney : Int := 21000000 * unitsPerCoin

/-- The largest magnitude of an output value that can be read from the wire. -/
def maxSafeInteger : Int := 0x1fffffffffffff

/-- The largest value that can be doubled without leaving the safe range. -/
def maxSafeAddition : Int := 0xfffffffffffff

/-- The longest transaction in bytes, witnesses left out. -/
def maxTransactionSize : Nat := 1000000

/-- The longest script that is evaluated. -/
def maxScriptSize : Nat := 10000

/-- The longest stack element that a script can push. -/
def maxElementSize : Nat := 520

/-- The most elements on the two stacks together. -/
def maxStackSize : Nat := 1000

/-- The most operations other than pushes in one script. -/
def maxOperations : Nat := 201

/-- The most public keys of one multiple signature check. -/
def maxMultisigKeys : Nat := 20

/-- What a byte outside the witness weighs. -/
def witnessScale : Nat := 4

/-- Confirmations before a coinbase coin may be spent. -/
def coinbaseMaturity : Int := 100

/-- Lock times below this are block heights, the others are times. -/
def lockTimeThreshold : Nat := 500000000

/-- The largest length or count that can be read from the wire. -/
def maxVectorSize : Nat := 0x02000000

/-- The sequence number of an input that ignores the lock time. -/
def finalSequence : UInt32 := 0xffffffff

/-- Set in a sequence number that carries no relative lock time. -/
def sequenceDisableFlag : UInt32 := 0x80000000

/-- Set in a sequence number whose relative lock time counts time. -/
def sequenceTypeFlag : UInt32 := 0x00400000

/-- The bits of a sequence number that hold a relative lock time. -/
def sequenceValueMask : UInt32 := 0x0000ffff

end CoinSpend.Limits
