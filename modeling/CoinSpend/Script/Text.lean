import CoinSpend.Script.Basic
import CoinSpend.Text.Blank
import CoinSpend.Text.Hex

/-!
# Script text

A script is written as words between spaces: names of opcodes, and hexadecimal
literals for the header and the data of a push.  Reading accepts more: decimal
numbers, quoted text, and names that begin with `OP_`.  Each word stands for
some bytes, and a text for those of its words in order.
-/

namespace CoinSpend

/-- Why a word stands for no bytes. -/
inductive WordFault where
  | numberOutOfRange (word : List Char)
  | badHex (word : List Char)
  | unknown (word : List Char)
  deriving DecidableEq

def WordFault.message : WordFault → String
  | .numberOutOfRange word => "Integer out of range: " ++ String.ofList word
  | .badHex word => "Invalid hex literal: " ++ String.ofList word
  | .unknown word => "Unknown token: " ++ String.ofList word

namespace Script

/-- The number that ASCII digits write. -/
def decimalNat (digits : List Char) : Nat :=
  digits.foldl (fun number digit => 10 * number + (digit.toNat - 48)) 0

/-- The number that a word writes in decimal, if it is one. -/
def decimal? (word : List Char) : Option Int :=
  match word with
  | '-' :: digits =>
      if digits ≠ [] ∧ digits.all Char.isDigit then some (-(decimalNat digits : Int)) else none
  | digits =>
      if digits ≠ [] ∧ digits.all Char.isDigit then some (decimalNat digits) else none

/-- The digits of a hexadecimal literal. -/
def hexDigits? (word : List Char) : Option (List Char) :=
  match word with
  | '0' :: 'x' :: digit :: digits => some (digit :: digits)
  | _ => none

/-- The text between two quotes at the ends of a word. -/
def quoted? (word : List Char) : Option (List Char) :=
  match word with
  | '\'' :: rest =>
      if rest.getLast? = some '\'' then some rest.dropLast else none
  | _ => none

/-- The largest magnitude of a number in a script text. -/
def maxTextNumber : Int := 0xffffffff

/-- The bytes that a word stands for. -/
def readWord (word : List Char) : Except WordFault Bytes :=
  match decimal? word with
  | some number =>
      if -maxTextNumber ≤ number ∧ number ≤ maxTextNumber then
        .ok (numberOf number).encode
      else
        .error (.numberOutOfRange word)
  | none =>
      match hexDigits? word with
      | some digits =>
          match Text.readHex digits with
          | .ok bytes => .ok bytes
          | .error _ => .error (.badHex word)
      | none =>
          match quoted? word with
          | some text => .ok (pushOf (Text.utf8 text)).encode
          | none =>
              match Opcode.ofName? word with
              | some opcode => .ok [opcode.byte]
              | none => .error (.unknown word)

/-- The pieces of a sequence of words after those in `done`, held backwards. -/
def readWords (done : List Bytes) : List (List Char) → Except WordFault Script
  | [] => .ok ⟨done.reverse.flatten⟩
  | word :: rest =>
      match readWord word with
      | .ok piece => readWords (piece :: done) rest
      | .error fault => .error fault

/-- Read a script text. -/
def parse (text : List Char) : Except WordFault Script :=
  readWords [] (Text.words text)

/-- A hexadecimal literal. -/
def hexLiteral (bytes : Bytes) : List Char :=
  '0' :: 'x' :: Text.hexChars bytes

/-- The word of an opcode that is written alone. -/
def opcodeWord (opcode : Opcode) : List Char :=
  match opcode.name? with
  | some name => name.toList
  | none => hexLiteral [opcode.byte]

/-- The words of an instruction.  The push of nothing in one byte has a name. -/
def instructionWords : Instruction → List (List Char)
  | .op opcode => [opcodeWord opcode]
  | .push form data =>
      if form = .direct ∧ data = [] then
        [opcodeWord .zero]
      else if data = [] then
        [hexLiteral (form.header data.length)]
      else
        [hexLiteral (form.header data.length), hexLiteral data]

/-- The words of a script.  A broken end is one literal. -/
def textWords (script : Script) : List (List Char) :=
  script.instructions.flatMap instructionWords ++
    (if script.brokenEnd = [] then [] else [hexLiteral script.brokenEnd])

/-- The text of a script. -/
def text (script : Script) : List Char :=
  [' '].intercalate script.textWords

end Script

end CoinSpend
