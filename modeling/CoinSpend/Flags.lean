import CoinSpend.Text.Blank

/-!
# Verification flags

A flag switches one rule of script verification on.  A set of flags is a 32-bit
word; its text is a list of names between commas, each of which may start with
`VERIFY_`.
-/

namespace CoinSpend

inductive Flag where
  /-- Evaluate the script whose hash an output names. -/
  | p2sh
  /-- Signatures, hash types and public keys must be well formed. -/
  | strictEncoding
  /-- Signatures must be strict DER. -/
  | strictDer
  /-- The second number of a signature must be in the lower half. -/
  | lowS
  /-- The extra element of a multiple signature check must be empty. -/
  | nullDummy
  /-- The unlocking script may only push. -/
  | pushOnly
  /-- Pushes and numbers must use their shortest form. -/
  | minimalData
  /-- Unassigned no-operations fail. -/
  | discourageNops
  /-- One element must be left at the end. -/
  | cleanStack
  | checkLockTime
  | checkSequence
  /-- Verify witness programs. -/
  | witness
  /-- Witness programs of unassigned versions fail. -/
  | discourageWitnessVersions
  /-- Conditions in witness scripts must be empty or one. -/
  | minimalIf
  /-- The signatures of a failed check must be empty. -/
  | nullFail
  /-- Public keys in witness scripts must be compressed. -/
  | compressedKeys
  deriving DecidableEq, Repr

namespace Flag

/-- Every flag, in the order of the bits. -/
def all : List Flag :=
  [p2sh, strictEncoding, strictDer, lowS, nullDummy, pushOnly, minimalData, discourageNops,
   cleanStack, checkLockTime, checkSequence, witness, discourageWitnessVersions, minimalIf,
   nullFail, compressedKeys]

/-- The bit that stands for a flag. -/
def mask : Flag → UInt32
  | p2sh => 0x0001
  | strictEncoding => 0x0002
  | strictDer => 0x0004
  | lowS => 0x0008
  | nullDummy => 0x0010
  | pushOnly => 0x0020
  | minimalData => 0x0040
  | discourageNops => 0x0080
  | cleanStack => 0x0100
  | checkLockTime => 0x0200
  | checkSequence => 0x0400
  | witness => 0x0800
  | discourageWitnessVersions => 0x1000
  | minimalIf => 0x2000
  | nullFail => 0x4000
  | compressedKeys => 0x8000

def name : Flag → String
  | p2sh => "P2SH"
  | strictEncoding => "STRICTENC"
  | strictDer => "DERSIG"
  | lowS => "LOW_S"
  | nullDummy => "NULLDUMMY"
  | pushOnly => "SIGPUSHONLY"
  | minimalData => "MINIMALDATA"
  | discourageNops => "DISCOURAGE_UPGRADABLE_NOPS"
  | cleanStack => "CLEANSTACK"
  | checkLockTime => "CHECKLOCKTIMEVERIFY"
  | checkSequence => "CHECKSEQUENCEVERIFY"
  | witness => "WITNESS"
  | discourageWitnessVersions => "DISCOURAGE_UPGRADABLE_WITNESS_PROGRAM"
  | minimalIf => "MINIMALIF"
  | nullFail => "NULLFAIL"
  | compressedKeys => "WITNESS_PUBKEYTYPE"

end Flag

structure Flags where
  bits : UInt32
  deriving DecidableEq

namespace Flags

def none : Flags :=
  ⟨0⟩

def has (flags : Flags) (flag : Flag) : Bool :=
  flags.bits &&& flag.mask != 0

def union (left right : Flags) : Flags :=
  ⟨left.bits ||| right.bits⟩

def ofList (flags : List Flag) : Flags :=
  ⟨flags.foldl (fun bits flag => bits ||| flag.mask) 0⟩

/-- The rules that every block must satisfy. -/
def mandatory : Flags :=
  ofList [.p2sh]

/-- The rules for transactions relayed outside blocks. -/
def standard : Flags :=
  ofList (Flag.all.filter (· ≠ .pushOnly))

/-- The flags of a set, in the order of the bits. -/
def toList (flags : Flags) : List Flag :=
  Flag.all.filter flags.has

/-- The names of the flags of a set, in the order of the bits. -/
def names (flags : Flags) : List String :=
  flags.toList.map Flag.name

/-- A name without the optional beginning. -/
def bareName (name : List Char) : List Char :=
  let start := "VERIFY_".toList
  if start.isPrefixOf name then name.drop start.length else name

/-- The set that a single name stands for.  `NONE` is the empty set. -/
def ofName? (name : List Char) : Option Flags :=
  let bare := bareName name
  if bare = "NONE".toList then
    some none
  else
    (Flag.all.find? fun flag => flag.name.toList = bare).map fun flag => ⟨flag.mask⟩

/-- The items of a flag text: its pieces without outer blanks, empty ones left out. -/
def items (text : List Char) : List (List Char) :=
  ((Text.split ',' text).map Text.trim).filter (· ≠ [])

/-- Join the sets of a list of names.  The first name that is unknown is the error. -/
def ofItems (flags : Flags) : List (List Char) → Except (List Char) Flags
  | [] => .ok flags
  | item :: rest =>
      match ofName? item with
      | Option.none => .error item
      | some named => ofItems (flags.union named) rest

/-- Read a flag text. -/
def parse (text : List Char) : Except (List Char) Flags :=
  ofItems none (items text)

end Flags

end CoinSpend
