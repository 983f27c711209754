import CoinSpend.Hash.Digest
import CoinSpend.Script.Instruction
import CoinSpend.Script.Number

/-!
# Scripts

A script is any byte string.  Its instructions are decoded on demand, so a
script with a broken end can still be stored, hashed and written back.
-/

namespace CoinSpend

structure Script where
  bytes : Bytes
  deriving DecidableEq

namespace Script

def empty : Script :=
  ⟨[]⟩

def isEmpty (script : Script) : Bool :=
  script.bytes.isEmpty

def length (script : Script) : Nat :=
  script.bytes.length

/-- The whole instructions of a script. -/
def instructions (script : Script) : List Instruction :=
  (Instruction.decode script.bytes).1

/-- The whole instructions of a script with the positions of their first bytes. -/
def placed (script : Script) : List (Nat × Instruction) :=
  Instruction.place 0 script.instructions

/-- What is left after the whole instructions. -/
def brokenEnd (script : Script) : Bytes :=
  (Instruction.decode script.bytes).2

/-- Whether a script consists of whole instructions. -/
def isWhole (script : Script) : Bool :=
  script.brokenEnd.isEmpty

/-- The script made of given instructions. -/
def ofInstructions (instructions : List Instruction) : Script :=
  ⟨instructions.flatMap Instruction.encode⟩

def append (script : Script) (instruction : Instruction) : Script :=
  ⟨script.bytes ++ instruction.encode⟩

def appendOpcode (script : Script) (opcode : Opcode) : Script :=
  ⟨script.bytes ++ [opcode.byte]⟩

/-- The instruction that pushes `data` with the shortest length field. -/
def pushOf (data : Bytes) : Instruction :=
  .push (.shortest data.length) data

/-- The instruction that pushes a number: an opcode from -1 to 16, otherwise the
script number as data. -/
def numberOf (number : Int) : Instruction :=
  if number = -1 then .op .negate1
  else if number = 0 then .push .direct []
  else if 1 ≤ number ∧ number ≤ 16 then .op ⟨UInt8.ofNat (0x50 + number.toNat)⟩
  else pushOf (ScriptNumber.encode number)

def appendData (script : Script) (data : Bytes) : Script :=
  script.append (pushOf data)

def appendNumber (script : Script) (number : Int) : Script :=
  script.append (numberOf number)

def hash160 (script : Script) : Hash160 :=
  CoinSpend.hash160 script.bytes

def sha256 (script : Script) : Hash256 :=
  CoinSpend.sha256 script.bytes

/-- Whether every instruction is a push or a small number, and none is broken. -/
def isPushOnly (script : Script) : Bool :=
  script.isWhole && script.instructions.all fun instruction => !instruction.opcode.isCounted

/-- The data of the last instruction of a push-only script, read as a script.  The
small numbers carry no data. -/
def redeemScript? (script : Script) : Option Script :=
  if script.isPushOnly then
    script.instructions.getLast?.map fun last => ⟨last.data?.getD []⟩
  else
    none

end Script

end CoinSpend
