import CoinSpend.Signature.Encoding
import CoinSpend.Transaction.Identity

/-!
# What a signature signs

A signature commits to a digest of the transaction that depends on the input, a
script and a hash type.  The bytes that are hashed have a name of their own, the
preimage, because what is committed to is read off them.
-/

namespace CoinSpend

/-- A hash type: which outputs are signed stands in the low five bits, and bit 7
limits the signature to its own input. -/
abbrev HashType := UInt32

namespace HashType

/-- Which outputs are signed. -/
inductive Scope where
  | all
  | none
  /-- Only the output with the index of the input. -/
  | single
  deriving DecidableEq, Repr

def scope (hashType : HashType) : Scope :=
  if hashType &&& 0x1f = 2 then .none
  else if hashType &&& 0x1f = 3 then .single
  else .all

/-- Whether other inputs may still change. -/
def ownInputOnly (hashType : HashType) : Bool :=
  hashType &&& 0x80 != 0

end HashType

/-- An index that names no input. -/
structure InputIndexFault where
  index : Nat
  count : Nat
  deriving DecidableEq, Repr

def InputIndexFault.message (fault : InputIndexFault) : String :=
  "Input index " ++ toString fault.index ++ " out of range for " ++
    toString fault.count ++ " inputs"

namespace Transaction

/-- The signed input, with the script in place of its own. -/
def signedInput (input : Input) (script : Script) : Bytes :=
  input.previous.encode ++ Wire.lengthPrefixed script.bytes ++ Wire.uint32 input.sequence

/-- Another input, without script, and with its sequence number only if all outputs
are signed. -/
def unsignedInput (scope : HashType.Scope) (input : Input) : Bytes :=
  input.previous.encode ++ Wire.compactSize 0 ++
    Wire.uint32 (if scope = .all then input.sequence else 0)

/-- The inputs as the base version signs them. -/
def signedInputs (transaction : Transaction) (index : Nat) (input : Input) (script : Script)
    (hashType : HashType) : Bytes :=
  if hashType.ownInputOnly then
    Wire.compactSize 1 ++ signedInput input script
  else
    Wire.compactSize transaction.inputs.length ++
      transaction.inputs.zipIdx.flatMap fun entry =>
        if entry.2 = index then
          signedInput entry.1 script
        else
          unsignedInput hashType.scope entry.1

/-- An output that is counted but not signed. -/
def unsignedOutput : Output :=
  ⟨-1, .empty⟩

/-- The outputs as the base version signs them. -/
def signedOutputs (transaction : Transaction) (index : Nat) (hashType : HashType) : Bytes :=
  match hashType.scope with
  | .none => Wire.compactSize 0
  | .single =>
      Wire.compactSize (index + 1) ++
        ((List.replicate index unsignedOutput).flatMap Output.encode ++
          (transaction.outputs[index]?.map Output.encode).getD [])
  | .all => Wire.counted Output.encode transaction.outputs

/-- What the base version hashes for an input. -/
def basePreimage (transaction : Transaction) (index : Nat) (input : Input)
    (script : Script) (hashType : HashType) : Bytes :=
  Wire.int32 transaction.version ++
    (signedInputs transaction index input script hashType ++
      (signedOutputs transaction index hashType ++
        (Wire.uint32 transaction.lockTime ++ Wire.uint32 hashType)))

/-- The digest of the base version for a single output that does not exist. -/
def missingOutputDigest : Hash256 :=
  ⟨1 :: List.replicate 31 0, rfl⟩

/-- Whether a single output is to be signed that does not exist. -/
def signsMissingOutput (transaction : Transaction) (index : Nat) (hashType : HashType) :
    Bool :=
  hashType.scope == .single && transaction.outputs.length ≤ index

def baseDigest (transaction : Transaction) (index : Nat) (input : Input) (script : Script)
    (hashType : HashType) : Hash256 :=
  if signsMissingOutput transaction index hashType then
    missingOutputDigest
  else
    doubleSha256 (basePreimage transaction index input script hashType)

/-- The three digests that a witness signature commits to: zero stands for what is
not signed. -/
def witnessParts (transaction : Transaction) (shared : Midstate) (index : Nat)
    (hashType : HashType) : Midstate where
  previous := if hashType.ownInputOnly then .zero 32 else shared.previous
  sequences :=
    if hashType.ownInputOnly ∨ hashType.scope ≠ .all then .zero 32 else shared.sequences
  outputs :=
    match hashType.scope with
    | .all => shared.outputs
    | .none => .zero 32
    | .single =>
        match transaction.outputs[index]? with
        | some output => doubleSha256 output.encode
        | none => .zero 32

/-- What the witness version hashes for an input. -/
def witnessPreimage (transaction : Transaction) (parts : Midstate) (input : Input)
    (script : Script) (value : Int64) (hashType : HashType) : Bytes :=
  Wire.int32 transaction.version ++
    (parts.previous.bytes ++
      (parts.sequences.bytes ++
        (input.previous.encode ++
          (Wire.lengthPrefixed script.bytes ++
            (Wire.int64 value ++
              (Wire.uint32 input.sequence ++
                (parts.outputs.bytes ++
                  (Wire.uint32 transaction.lockTime ++ Wire.uint32 hashType))))))))

/-- The digest that a signature of an input signs.  Only the witness version uses
the shared digests and the value. -/
def signatureDigest (transaction : Transaction) (shared : Midstate) (index : Nat)
    (script : Script) (value : Int64) (hashType : HashType) (version : SignatureVersion) :
    Except InputIndexFault Hash256 :=
  match transaction.inputs[index]? with
  | none => .error ⟨index, transaction.inputs.length⟩
  | some input =>
      match version with
      | .base => .ok (baseDigest transaction index input script hashType)
      | .witnessV0 =>
          let parts := witnessParts transaction shared index hashType
          .ok (doubleSha256
            (witnessPreimage transaction parts input script value hashType))

end Transaction

end CoinSpend
