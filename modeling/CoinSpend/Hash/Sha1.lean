import CoinSpend.Hash.Blocks

/-!
# SHA-1
-/

namespace CoinSpend.Hash.Sha1

structure State where
  a : UInt32
  b : UInt32
  c : UInt32
  d : UInt32
  e : UInt32

def initial : State :=
  ⟨0x67452301, 0xefcdab89, 0x98badcfe, 0x10325476, 0xc3d2e1f0⟩

/-- A block extended to the eighty words of its rounds. -/
def schedule (block : Array UInt32) : Array UInt32 :=
  (List.range 64).foldl
    (fun words index =>
      words.push (rotateLeft
        (words.getD (index + 13) 0 ^^^ words.getD (index + 8) 0 ^^^
          words.getD (index + 2) 0 ^^^ words.getD index 0) 1)) block

/-- The mixing function and constant of a round. -/
def mix (index : Nat) (b c d : UInt32) : UInt32 :=
  if index < 20 then ((b &&& c) ||| (~~~b &&& d)) + 0x5a827999
  else if index < 40 then (b ^^^ c ^^^ d) + 0x6ed9eba1
  else if index < 60 then ((b &&& c) ||| (b &&& d) ||| (c &&& d)) + 0x8f1bbcdc
  else (b ^^^ c ^^^ d) + 0xca62c1d6

def round (state : State) (index : Nat) (word : UInt32) : State :=
  ⟨rotateLeft state.a 5 + mix index state.b state.c state.d + state.e + word,
   state.a, rotateLeft state.b 30, state.c, state.d⟩

def compress (state : State) (block : Array UInt32) : State :=
  let words := schedule block
  let last := (List.range 80).foldl
    (fun current index => round current index (words.getD index 0)) state
  ⟨state.a + last.a, state.b + last.b, state.c + last.c, state.d + last.d,
   state.e + last.e⟩

def State.toBytes (state : State) : Bytes :=
  [state.a, state.b, state.c, state.d, state.e].flatMap bigEndianBytes

/-- The twenty bytes of the digest. -/
def digest (message : Bytes) : Bytes :=
  (chain compress initial
    (bigEndianWords #[] (padded (Bytes.bigEndian 8) message))).toBytes

@[simp] theorem length_digest (message : Bytes) : (digest message).length = 20 :=
  rfl

end CoinSpend.Hash.Sha1
