import CoinSpend.Hash.Blocks

/-!
# SHA-256
-/

namespace CoinSpend.Hash.Sha256

structure State where
  a : UInt32
  b : UInt32
  c : UInt32
  d : UInt32
  e : UInt32
  f : UInt32
  g : UInt32
  h : UInt32

def initial : State :=
  ⟨0x6a09e667, 0xbb67ae85, 0x3c6ef372, 0xa54ff53a,
   0x510e527f, 0x9b05688c, 0x1f83d9ab, 0x5be0cd19⟩

def roundConstants : Array UInt32 :=
  #[0x428a2f98, 0x71374491, 0xb5c0fbcf, 0xe9b5dba5, 0x3956c25b, 0x59f111f1, 0x923f82a4, 0xab1c5ed5,
    0xd807aa98, 0x12835b01, 0x243185be, 0x550c7dc3, 0x72be5d74, 0x80deb1fe, 0x9bdc06a7, 0xc19bf174,
    0xe49b69c1, 0xefbe4786, 0x0fc19dc6, 0x240ca1cc, 0x2de92c6f, 0x4a7484aa, 0x5cb0a9dc, 0x76f988da,
    0x983e5152, 0xa831c66d, 0xb00327c8, 0xbf597fc7, 0xc6e00bf3, 0xd5a79147, 0x06ca6351, 0x14292967,
    0x27b70a85, 0x2e1b2138, 0x4d2c6dfc, 0x53380d13, 0x650a7354, 0x766a0abb, 0x81c2c92e, 0x92722c85,
    0xa2bfe8a1, 0xa81a664b, 0xc24b8b70, 0xc76c51a3, 0xd192e819, 0xd6990624, 0xf40e3585, 0x106aa070,
    0x19a4c116, 0x1e376c08, 0x2748774c, 0x34b0bcb5, 0x391c0cb3, 0x4ed8aa4a, 0x5b9cca4f, 0x682e6ff3,
    0x748f82ee, 0x78a5636f, 0x84c87814, 0x8cc70208, 0x90befffa, 0xa4506ceb, 0xbef9a3f7, 0xc67178f2]

/-- The word that follows sixteen or more words of a message schedule. -/
def nextWord (words : Array UInt32) (index : Nat) : UInt32 :=
  let early := words.getD (index + 1) 0
  let late := words.getD (index + 14) 0
  words.getD index 0 + words.getD (index + 9) 0
    + (rotateRight early 7 ^^^ rotateRight early 18 ^^^ (early >>> 3))
    + (rotateRight late 17 ^^^ rotateRight late 19 ^^^ (late >>> 10))

/-- A block extended to the sixty-four words of its rounds. -/
def schedule (block : Array UInt32) : Array UInt32 :=
  (List.range 48).foldl (fun words index => words.push (nextWord words index)) block

def round (state : State) (input : UInt32) : State :=
  let choice := (state.e &&& state.f) ^^^ (~~~state.e &&& state.g)
  let majority := (state.a &&& state.b) ^^^ (state.a &&& state.c) ^^^ (state.b &&& state.c)
  let upper := rotateRight state.a 2 ^^^ rotateRight state.a 13 ^^^ rotateRight state.a 22
  let lower := rotateRight state.e 6 ^^^ rotateRight state.e 11 ^^^ rotateRight state.e 25
  let first := state.h + lower + choice + input
  ⟨first + upper + majority, state.a, state.b, state.c,
   state.d + first, state.e, state.f, state.g⟩

def compress (state : State) (block : Array UInt32) : State :=
  let words := schedule block
  let last := (List.range 64).foldl
    (fun current index =>
      round current (roundConstants.getD index 0 + words.getD index 0)) state
  ⟨state.a + last.a, state.b + last.b, state.c + last.c, state.d + last.d,
   state.e + last.e, state.f + last.f, state.g + last.g, state.h + last.h⟩

def State.toBytes (state : State) : Bytes :=
  [state.a, state.b, state.c, state.d, state.e, state.f, state.g, state.h].flatMap
    bigEndianBytes

/-- The thirty-two bytes of the digest. -/
def digest (message : Bytes) : Bytes :=
  (chain compress initial
    (bigEndianWords #[] (padded (Bytes.bigEndian 8) message))).toBytes

@[simp] theorem length_digest (message : Bytes) : (digest message).length = 32 :=
  rfl

end CoinSpend.Hash.Sha256
