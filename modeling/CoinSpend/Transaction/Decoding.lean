import CoinSpend.Text.Blank
import CoinSpend.Transaction.Basic
import CoinSpend.Wire.Reader

/-!
# Reading a transaction

What is read is exactly what the writer writes: counts are in their shortest
form, nothing follows the transaction, and witnesses are announced by a marker
and a flag after the version.
-/

namespace CoinSpend

namespace Wire.Decoder

def outPoint : Decoder OutPoint := do
  let hash ← hash256
  let index ← uint32
  return ⟨hash, index⟩

/-- An input, without its witness. -/
def input : Decoder Input := do
  let previous ← outPoint
  let unlocking ← lengthPrefixed
  let sequence ← uint32
  return ⟨previous, ⟨unlocking⟩, [], sequence⟩

def output : Decoder Output := do
  let value ← amount
  let locking ← lengthPrefixed
  return ⟨value, ⟨locking⟩⟩

def witness : Decoder Witness := do
  repeated (← length) lengthPrefixed

/-- Take marker and flag, if they are there.  A zero after the marker is the
output count of a transaction without inputs. -/
def envelope : Decoder Bool := do
  let reader ← get
  match reader.peek? 0, reader.peek? 1 with
  | some 0, some flag =>
      if flag = 0 then
        return false
      else if flag = 1 then
        let _ ← bytes 2
        return true
      else
        throw (.unknownFlag flag)
  | _, _ => return false

/-- Read one witness for each input, after the inputs in `done`, held backwards. -/
def witnessesFrom (done : List Input) : List Input → Decoder (List Input)
  | [] => return done.reverse
  | input :: rest => do
      let stack ← witness
      witnessesFrom ({ input with witness := stack } :: done) rest

def transaction : Decoder Transaction := do
  let version ← int32
  let flagged ← envelope
  let bare ← repeated (← length) input
  let outputs ← repeated (← length) output
  let inputs ← if flagged then witnessesFrom [] bare else pure bare
  let lockTime ← uint32
  return ⟨version, inputs, outputs, lockTime, flagged⟩

end Wire.Decoder

namespace Transaction

/-- Read a whole byte string as one transaction. -/
def decode (bytes : Bytes) : Except Wire.DecodeFault Transaction :=
  match Wire.Decoder.transaction.runOn (.ofBytes bytes) with
  | (.error fault, _) => .error fault
  | (.ok transaction, reader) =>
      if reader.isEmpty then
        .ok transaction
      else
        .error (.trailing reader.remaining)

/-- Read the hexadecimal text of a transaction, which may stand between blanks. -/
def ofHex (text : List Char) : Except Wire.DecodeFault Transaction :=
  match Text.readHex (Text.trim text) with
  | .error fault => .error (.badHex fault)
  | .ok bytes => decode bytes

end Transaction

end CoinSpend
