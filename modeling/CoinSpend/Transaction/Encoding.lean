import CoinSpend.Transaction.Basic
import CoinSpend.Wire.CompactSize

/-!
# The wire form of a transaction
-/

namespace CoinSpend

namespace Wire

def uint32 (value : UInt32) : Bytes :=
  Bytes.littleEndian 4 value.toNat

def int32 (value : Int32) : Bytes :=
  uint32 value.toUInt32

def int64 (value : Int64) : Bytes :=
  Bytes.littleEndian 8 value.toUInt64.toNat

/-- A count and that many encoded items. -/
def counted {α : Type} (encode : α → Bytes) (items : List α) : Bytes :=
  compactSize items.length ++ items.flatMap encode

def witness (witness : Witness) : Bytes :=
  counted lengthPrefixed witness

end Wire

def OutPoint.encode (outPoint : OutPoint) : Bytes :=
  outPoint.hash.bytes ++ Wire.uint32 outPoint.index

/-- An input without its witness. -/
def Input.encode (input : Input) : Bytes :=
  input.previous.encode ++ Wire.lengthPrefixed input.unlocking.bytes ++
    Wire.uint32 input.sequence

def Output.encode (output : Output) : Bytes :=
  Wire.int64 output.value ++ Wire.lengthPrefixed output.locking.bytes

namespace Transaction

/-- Marker and flag of the form with witnesses. -/
def envelope : Bytes :=
  [0x00, 0x01]

/-- The wire form with or without the witnesses. -/
def encodeWith (transaction : Transaction) (withWitness : Bool) : Bytes :=
  Wire.int32 transaction.version ++
    ((if withWitness then envelope else []) ++
      (Wire.counted Input.encode transaction.inputs ++
        (Wire.counted Output.encode transaction.outputs ++
          ((if withWitness then
              transaction.inputs.flatMap fun input => Wire.witness input.witness
            else []) ++
            Wire.uint32 transaction.lockTime))))

/-- The wire form, with the witnesses if it has room for them. -/
def encode (transaction : Transaction) : Bytes :=
  transaction.encodeWith transaction.usesEnvelope

/-- The wire form without witnesses. -/
def encodeBase (transaction : Transaction) : Bytes :=
  transaction.encodeWith false

end Transaction

end CoinSpend
