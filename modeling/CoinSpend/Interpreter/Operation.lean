import CoinSpend.Script.Opcode

/-!
# What opcodes do

Opcodes fall into families with one meaning each.  An opcode without a meaning is
`bad`; the disabled ones are among them.
-/

namespace CoinSpend

/-- Operations that move or copy elements of the stack. -/
inductive StackOperation where
  | drop2 | dup2 | dup3 | over2 | rotate2 | swap2
  | dupIfTrue | depth | drop | dup | nip | over | pick | roll | rotate | swap | tuck
  | size
  deriving DecidableEq, Repr

inductive UnaryOperation where
  | increment | decrement | negate | absolute | not | notZero
  deriving DecidableEq, Repr

inductive BinaryOperation where
  | add | subtract | and | or | equal | notEqual | less | greater | lessOrEqual
  | greaterOrEqual | minimum | maximum
  deriving DecidableEq, Repr

inductive HashOperation where
  | ripemd160 | sha1 | sha256 | hash160 | doubleSha256
  deriving DecidableEq, Repr

inductive Operation where
  | number (value : Int)
  | nop
  | reservedNop
  | checkLockTime
  | checkSequence
  | openBranch (negated : Bool)
  | flipBranch
  | closeBranch
  | verify
  | fail
  | toAlt
  | fromAlt
  | stack (operation : StackOperation)
  | equal (thenVerify : Bool)
  | unary (operation : UnaryOperation)
  | binary (operation : BinaryOperation)
  | numEqualVerify
  | within
  | hash (operation : HashOperation)
  | codeSeparator
  | checkSignature (thenVerify : Bool)
  | checkMultisig (thenVerify : Bool)
  | bad
  deriving DecidableEq, Repr

namespace Operation

/-- The meaning of the opcodes above 16. -/
def ofByte (byte : UInt8) : Operation :=
  match byte with
  | 0x61 => .nop
  | 0x63 => .openBranch false
  | 0x64 => .openBranch true
  | 0x67 => .flipBranch
  | 0x68 => .closeBranch
  | 0x69 => .verify
  | 0x6a => .fail
  | 0x6b => .toAlt
  | 0x6c => .fromAlt
  | 0x6d => .stack .drop2
  | 0x6e => .stack .dup2
  | 0x6f => .stack .dup3
  | 0x70 => .stack .over2
  | 0x71 => .stack .rotate2
  | 0x72 => .stack .swap2
  | 0x73 => .stack .dupIfTrue
  | 0x74 => .stack .depth
  | 0x75 => .stack .drop
  | 0x76 => .stack .dup
  | 0x77 => .stack .nip
  | 0x78 => .stack .over
  | 0x79 => .stack .pick
  | 0x7a => .stack .roll
  | 0x7b => .stack .rotate
  | 0x7c => .stack .swap
  | 0x7d => .stack .tuck
  | 0x82 => .stack .size
  | 0x87 => .equal false
  | 0x88 => .equal true
  | 0x8b => .unary .increment
  | 0x8c => .unary .decrement
  | 0x8f => .unary .negate
  | 0x90 => .unary .absolute
  | 0x91 => .unary .not
  | 0x92 => .unary .notZero
  | 0x93 => .binary .add
  | 0x94 => .binary .subtract
  | 0x9a => .binary .and
  | 0x9b => .binary .or
  | 0x9c => .binary .equal
  | 0x9d => .numEqualVerify
  | 0x9e => .binary .notEqual
  | 0x9f => .binary .less
  | 0xa0 => .binary .greater
  | 0xa1 => .binary .lessOrEqual
  | 0xa2 => .binary .greaterOrEqual
  | 0xa3 => .binary .minimum
  | 0xa4 => .binary .maximum
  | 0xa5 => .within
  | 0xa6 => .hash .ripemd160
  | 0xa7 => .hash .sha1
  | 0xa8 => .hash .sha256
  | 0xa9 => .hash .hash160
  | 0xaa => .hash .doubleSha256
  | 0xab => .codeSeparator
  | 0xac => .checkSignature false
  | 0xad => .checkSignature true
  | 0xae => .checkMultisig false
  | 0xaf => .checkMultisig true
  | 0xb1 => .checkLockTime
  | 0xb2 => .checkSequence
  | 0xb0 | 0xb3 | 0xb4 | 0xb5 | 0xb6 | 0xb7 | 0xb8 | 0xb9 => .reservedNop
  | _ => .bad

/-- The meaning of an opcode that is no push of data. -/
def ofOpcode (opcode : Opcode) : Operation :=
  if opcode = .negate1 then .number (-1)
  else if opcode.isSmallNumber then .number (opcode.byte.toNat - 0x50)
  else ofByte opcode.byte

end Operation

end CoinSpend
