import CoinSpend.Transaction.Encoding

/-!
# Digests of a transaction

The hash that names a transaction leaves its witnesses out.  Three more digests
are shared by the witness signatures of all inputs.
-/

namespace CoinSpend

/-- Digests of the outpoints spent, the sequence numbers and the outputs. -/
structure Midstate where
  previous : Hash256
  sequences : Hash256
  outputs : Hash256
  deriving DecidableEq

namespace Transaction

/-- The hash of the form without witnesses. -/
def hash (transaction : Transaction) : Hash256 :=
  doubleSha256 transaction.encodeBase

/-- The hash of the form with witnesses. -/
def fullHash (transaction : Transaction) : Hash256 :=
  doubleSha256 (transaction.encodeWith true)

/-- The hash that covers the witnesses; without any it is the hash itself. -/
def witnessHash (transaction : Transaction) : Hash256 :=
  if transaction.hasWitness then transaction.fullHash else transaction.hash

def midstate (transaction : Transaction) : Midstate where
  previous := doubleSha256 (transaction.inputs.flatMap fun input => input.previous.encode)
  sequences := doubleSha256 (transaction.inputs.flatMap fun input => Wire.uint32 input.sequence)
  outputs := doubleSha256 (transaction.outputs.flatMap Output.encode)

end Transaction

end CoinSpend
