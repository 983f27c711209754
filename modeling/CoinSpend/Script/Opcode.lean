/-!
# Opcodes

Every byte is an opcode.  Most have a name, some of them two; a few are disabled
wherever they stand; and one group stands for the small numbers.
-/

namespace CoinSpend

structure Opcode where
  byte : UInt8
  deriving DecidableEq

namespace Opcode

def zero : Opcode := ⟨0x00⟩
def pushData1 : Opcode := ⟨0x4c⟩
def pushData2 : Opcode := ⟨0x4d⟩
def pushData4 : Opcode := ⟨0x4e⟩
def negate1 : Opcode := ⟨0x4f⟩
def one : Opcode := ⟨0x51⟩
def sixteen : Opcode := ⟨0x60⟩
def ifTrue : Opcode := ⟨0x63⟩
def endIf : Opcode := ⟨0x68⟩
def dup : Opcode := ⟨0x76⟩
def equal : Opcode := ⟨0x87⟩
def equalVerify : Opcode := ⟨0x88⟩
def hash160 : Opcode := ⟨0xa9⟩
def codeSeparator : Opcode := ⟨0xab⟩
def checkSig : Opcode := ⟨0xac⟩
def checkSigVerify : Opcode := ⟨0xad⟩
def checkMultisig : Opcode := ⟨0xae⟩
def checkMultisigVerify : Opcode := ⟨0xaf⟩

/-- The names of the opcodes. -/
def names : List (UInt8 × String) :=
  [(0x00, "0"), (0x4c, "PUSHDATA1"), (0x4d, "PUSHDATA2"), (0x4e, "PUSHDATA4"),
   (0x4f, "1NEGATE"), (0x50, "RESERVED"),
   (0x51, "1"), (0x52, "2"), (0x53, "3"), (0x54, "4"), (0x55, "5"), (0x56, "6"),
   (0x57, "7"), (0x58, "8"), (0x59, "9"), (0x5a, "10"), (0x5b, "11"), (0x5c, "12"),
   (0x5d, "13"), (0x5e, "14"), (0x5f, "15"), (0x60, "16"),
   (0x61, "NOP"), (0x62, "VER"), (0x63, "IF"), (0x64, "NOTIF"), (0x65, "VERIF"),
   (0x66, "VERNOTIF"), (0x67, "ELSE"), (0x68, "ENDIF"), (0x69, "VERIFY"), (0x6a, "RETURN"),
   (0x6b, "TOALTSTACK"), (0x6c, "FROMALTSTACK"), (0x6d, "2DROP"), (0x6e, "2DUP"),
   (0x6f, "3DUP"), (0x70, "2OVER"), (0x71, "2ROT"), (0x72, "2SWAP"), (0x73, "IFDUP"),
   (0x74, "DEPTH"), (0x75, "DROP"), (0x76, "DUP"), (0x77, "NIP"), (0x78, "OVER"),
   (0x79, "PICK"), (0x7a, "ROLL"), (0x7b, "ROT"), (0x7c, "SWAP"), (0x7d, "TUCK"),
   (0x7e, "CAT"), (0x7f, "SUBSTR"), (0x80, "LEFT"), (0x81, "RIGHT"), (0x82, "SIZE"),
   (0x83, "INVERT"), (0x84, "AND"), (0x85, "OR"), (0x86, "XOR"), (0x87, "EQUAL"),
   (0x88, "EQUALVERIFY"), (0x89, "RESERVED1"), (0x8a, "RESERVED2"),
   (0x8b, "1ADD"), (0x8c, "1SUB"), (0x8d, "2MUL"), (0x8e, "2DIV"), (0x8f, "NEGATE"),
   (0x90, "ABS"), (0x91, "NOT"), (0x92, "0NOTEQUAL"), (0x93, "ADD"), (0x94, "SUB"),
   (0x95, "MUL"), (0x96, "DIV"), (0x97, "MOD"), (0x98, "LSHIFT"), (0x99, "RSHIFT"),
   (0x9a, "BOOLAND"), (0x9b, "BOOLOR"), (0x9c, "NUMEQUAL"), (0x9d, "NUMEQUALVERIFY"),
   (0x9e, "NUMNOTEQUAL"), (0x9f, "LESSTHAN"), (0xa0, "GREATERTHAN"),
   (0xa1, "LESSTHANOREQUAL"), (0xa2, "GREATERTHANOREQUAL"), (0xa3, "MIN"), (0xa4, "MAX"),
   (0xa5, "WITHIN"), (0xa6, "RIPEMD160"), (0xa7, "SHA1"), (0xa8, "SHA256"),
   (0xa9, "HASH160"), (0xaa, "HASH256"), (0xab, "CODESEPARATOR"), (0xac, "CHECKSIG"),
   (0xad, "CHECKSIGVERIFY"), (0xae, "CHECKMULTISIG"), (0xaf, "CHECKMULTISIGVERIFY"),
   (0xb0, "NOP1"), (0xb1, "CHECKLOCKTIMEVERIFY"), (0xb2, "CHECKSEQUENCEVERIFY"),
   (0xb3, "NOP4"), (0xb4, "NOP5"), (0xb5, "NOP6"), (0xb6, "NOP7"), (0xb7, "NOP8"),
   (0xb8, "NOP9"), (0xb9, "NOP10"), (0xff, "INVALIDOPCODE")]

/-- Names that are read but never written. -/
def aliases : List (UInt8 × String) :=
  [(0x00, "FALSE"), (0x51, "TRUE"), (0xb1, "NOP2"), (0xb2, "NOP3")]

/-- The name of an opcode, without `OP_`. -/
def name? (opcode : Opcode) : Option String :=
  (names.find? fun entry => entry.1 = opcode.byte).map Prod.snd

/-- The opcode of a name, which may start with `OP_`. -/
def ofName? (name : List Char) : Option Opcode :=
  let start := "OP_".toList
  let bare := if start.isPrefixOf name then name.drop start.length else name
  ((names ++ aliases).find? fun entry => entry.2.toList = bare).map fun entry => ⟨entry.1⟩

/-- The opcodes that fail even where they are not executed. -/
def isDisabled (opcode : Opcode) : Bool :=
  [0x7e, 0x7f, 0x80, 0x81, 0x83, 0x84, 0x85, 0x86, 0x8d, 0x8e,
   0x95, 0x96, 0x97, 0x98, 0x99].contains opcode.byte

/-- Whether an opcode is one of the numbers 1 to 16. -/
def isSmallNumber (opcode : Opcode) : Bool :=
  one.byte ≤ opcode.byte && opcode.byte ≤ sixteen.byte

/-- The number from 0 to 16 that an opcode stands for. -/
def smallNumber? (opcode : Opcode) : Option Nat :=
  if opcode = zero then
    some 0
  else if opcode.isSmallNumber then
    some (opcode.byte.toNat - 0x50)
  else
    none

/-- The opcode of a number from 0 to 16. -/
def ofSmallNumber? (number : Nat) : Option Opcode :=
  if number = 0 then
    some zero
  else if number ≤ 16 then
    some ⟨UInt8.ofNat (0x50 + number)⟩
  else
    none

/-- Whether an opcode counts towards the limit of operations.  The opcodes up to
16 only push. -/
def isCounted (opcode : Opcode) : Bool :=
  sixteen.byte < opcode.byte

end Opcode

end CoinSpend
