import CoinSpend.Bytes

/-!
# Messages in sixteen-word blocks

The three message digests used by scripts share one shape: the message is
padded to whole blocks of sixteen 32-bit words, and a chaining value is
compressed with one block after another.  They differ in byte order and in
the compression.
-/

namespace CoinSpend.Hash

def rotateLeft (word : UInt32) (count : UInt32) : UInt32 :=
  (word <<< count) ||| (word >>> (32 - count))

def rotateRight (word : UInt32) (count : UInt32) : UInt32 :=
  (word >>> count) ||| (word <<< (32 - count))

/-- Zero bytes after the mark that leave eight bytes to the end of a block. -/
def paddingZeros (length : Nat) : Nat :=
  (119 - length % 64) % 64

/-- The message, one set bit, zeros, and the bit length in eight bytes. -/
def padded (lengthField : Nat → Bytes) (message : Bytes) : Bytes :=
  message ++ 0x80 :: (List.replicate (paddingZeros message.length) 0 ++
    lengthField (8 * message.length))

/-- Group bytes into words, the most significant byte first. -/
def bigEndianWords (done : Array UInt32) : Bytes → Array UInt32
  | a :: b :: c :: d :: rest =>
      bigEndianWords
        (done.push ((a.toUInt32 <<< 24) ||| (b.toUInt32 <<< 16) |||
          (c.toUInt32 <<< 8) ||| d.toUInt32)) rest
  | _ => done

/-- Group bytes into words, the least significant byte first. -/
def littleEndianWords (done : Array UInt32) : Bytes → Array UInt32
  | a :: b :: c :: d :: rest =>
      littleEndianWords
        (done.push (a.toUInt32 ||| (b.toUInt32 <<< 8) |||
          (c.toUInt32 <<< 16) ||| (d.toUInt32 <<< 24))) rest
  | _ => done

/-- Compress every whole block of a word sequence into the chaining value. -/
def chain {State : Type} (compress : State → Array UInt32 → State)
    (initial : State) (words : Array UInt32) : State :=
  (List.range (words.size / 16)).foldl
    (fun state block => compress state (words.extract (16 * block) (16 * block + 16)))
    initial

/-- The four bytes of a word, the most significant first. -/
def bigEndianBytes (word : UInt32) : Bytes :=
  [(word >>> 24).toUInt8, (word >>> 16).toUInt8, (word >>> 8).toUInt8, word.toUInt8]

/-- The four bytes of a word, the least significant first. -/
def littleEndianBytes (word : UInt32) : Bytes :=
  [word.toUInt8, (word >>> 8).toUInt8, (word >>> 16).toUInt8, (word >>> 24).toUInt8]

end CoinSpend.Hash
