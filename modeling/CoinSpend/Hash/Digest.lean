import CoinSpend.Hash.Sha256
import CoinSpend.Hash.Sha1
import CoinSpend.Hash.Ripemd160

/-!
# Digests of a fixed size

The hashes that name transactions, scripts and keys, with their size in the
type.  Bytes stand in wire order.
-/

namespace CoinSpend

/-- A byte string of a fixed size. -/
structure Digest (size : Nat) where
  bytes : Bytes
  length_bytes : bytes.length = size
  deriving DecidableEq

abbrev Hash256 := Digest 32

abbrev Hash160 := Digest 20

namespace Digest

/-- Recognize a byte string of the right size. -/
def ofBytes? (size : Nat) (bytes : Bytes) : Option (Digest size) :=
  if sized : bytes.length = size then some ⟨bytes, sized⟩ else none

/-- The digest that is zero everywhere. -/
def zero (size : Nat) : Digest size :=
  ⟨List.replicate size 0, List.length_replicate⟩

@[ext] theorem ext {size : Nat} {left right : Digest size}
    (same : left.bytes = right.bytes) : left = right := by
  cases left
  cases right
  cases same
  rfl

end Digest

def sha256 (message : Bytes) : Hash256 :=
  ⟨Hash.Sha256.digest message, Hash.Sha256.length_digest message⟩

/-- SHA-256 twice, the hash of transactions. -/
def doubleSha256 (message : Bytes) : Hash256 :=
  sha256 (sha256 message).bytes

def ripemd160 (message : Bytes) : Hash160 :=
  ⟨Hash.Ripemd160.digest message, Hash.Ripemd160.length_digest message⟩

def sha1 (message : Bytes) : Hash160 :=
  ⟨Hash.Sha1.digest message, Hash.Sha1.length_digest message⟩

/-- RIPEMD-160 of SHA-256, the hash of keys and scripts. -/
def hash160 (message : Bytes) : Hash160 :=
  ripemd160 (sha256 message).bytes

end CoinSpend
