import CoinSpend.Hash.Blocks

/-!
# RIPEMD-160

Two lines of eighty rounds read the same block in different orders.  Their
results are added crosswise to the chaining value.
-/

namespace CoinSpend.Hash.Ripemd160

structure State where
  a : UInt32
  b : UInt32
  c : UInt32
  d : UInt32
  e : UInt32

def initial : State :=
  ⟨0x67452301, 0xefcdab89, 0x98badcfe, 0x10325476, 0xc3d2e1f0⟩

/-- One line of rounds: word order, rotations, additive constants, and whether
the mixing functions run from the last to the first. -/
structure Line where
  order : Array Nat
  rotations : Array UInt32
  constants : Array UInt32
  backwards : Bool

def left : Line where
  order :=
    #[0, 1, 2, 3, 4, 5, 6, 7, 8, 9, 10, 11, 12, 13, 14, 15,
      7, 4, 13, 1, 10, 6, 15, 3, 12, 0, 9, 5, 2, 14, 11, 8,
      3, 10, 14, 4, 9, 15, 8, 1, 2, 7, 0, 6, 13, 11, 5, 12,
      1, 9, 11, 10, 0, 8, 12, 4, 13, 3, 7, 15, 14, 5, 6, 2,
      4, 0, 5, 9, 7, 12, 2, 10, 14, 1, 3, 8, 11, 6, 15, 13]
  rotations :=
    #[11, 14, 15, 12, 5, 8, 7, 9, 11, 13, 14, 15, 6, 7, 9, 8,
      7, 6, 8, 13, 11, 9, 7, 15, 7, 12, 15, 9, 11, 7, 13, 12,
      11, 13, 6, 7, 14, 9, 13, 15, 14, 8, 13, 6, 5, 12, 7, 5,
      11, 12, 14, 15, 14, 15, 9, 8, 9, 14, 5, 6, 8, 6, 5, 12,
      9, 15, 5, 11, 6, 8, 13, 12, 5, 12, 13, 14, 11, 8, 5, 6]
  constants := #[0x00000000, 0x5a827999, 0x6ed9eba1, 0x8f1bbcdc, 0xa953fd4e]
  backwards := false

def right : Line where
  order :=
    #[5, 14, 7, 0, 9, 2, 11, 4, 13, 6, 15, 8, 1, 10, 3, 12,
      6, 11, 3, 7, 0, 13, 5, 10, 14, 15, 8, 12, 4, 9, 1, 2,
      15, 5, 1, 3, 7, 14, 6, 9, 11, 8, 12, 2, 10, 0, 4, 13,
      8, 6, 4, 1, 3, 11, 15, 0, 5, 12, 2, 13, 9, 7, 10, 14,
      12, 15, 10, 4, 1, 5, 8, 7, 6, 2, 13, 14, 0, 3, 9, 11]
  rotations :=
    #[8, 9, 9, 11, 13, 15, 15, 5, 7, 7, 8, 11, 14, 14, 12, 6,
      9, 13, 15, 7, 12, 8, 9, 11, 7, 7, 12, 7, 6, 15, 13, 11,
      9, 7, 15, 11, 8, 6, 6, 14, 12, 13, 5, 14, 13, 13, 7, 5,
      15, 5, 8, 11, 14, 14, 6, 14, 6, 9, 12, 9, 12, 5, 15, 8,
      8, 5, 12, 9, 12, 5, 14, 6, 8, 13, 6, 5, 15, 13, 11, 11]
  constants := #[0x50a28be6, 0x5c4dd124, 0x6d703ef3, 0x7a6d76e9, 0x00000000]
  backwards := true

/-- The five mixing functions. -/
def mix (group : Nat) (b c d : UInt32) : UInt32 :=
  match group with
  | 0 => b ^^^ c ^^^ d
  | 1 => (b &&& c) ||| (~~~b &&& d)
  | 2 => (b ||| ~~~c) ^^^ d
  | 3 => (b &&& d) ||| (c &&& ~~~d)
  | _ => b ^^^ (c ||| ~~~d)

def round (line : Line) (block : Array UInt32) (state : State) (index : Nat) : State :=
  let group := index / 16
  let mixed := mix (if line.backwards then 4 - group else group) state.b state.c state.d
  let word := block.getD (line.order.getD index 0) 0
  let sum := state.a + mixed + word + line.constants.getD group 0
  ⟨state.e, rotateLeft sum (line.rotations.getD index 0) + state.e,
   state.b, rotateLeft state.c 10, state.d⟩

def runLine (line : Line) (block : Array UInt32) (state : State) : State :=
  (List.range 80).foldl (round line block) state

def compress (state : State) (block : Array UInt32) : State :=
  let l := runLine left block state
  let r := runLine right block state
  ⟨state.b + l.c + r.d, state.c + l.d + r.e, state.d + l.e + r.a,
   state.e + l.a + r.b, state.a + l.b + r.c⟩

def State.toBytes (state : State) : Bytes :=
  [state.a, state.b, state.c, state.d, state.e].flatMap littleEndianBytes

/-- The twenty bytes of the digest. -/
def digest (message : Bytes) : Bytes :=
  (chain compress initial
    (littleEndianWords #[] (padded (Bytes.littleEndian 8) message))).toBytes

@[simp] theorem length_digest (message : Bytes) : (digest message).length = 20 :=
  rfl

end CoinSpend.Hash.Ripemd160
