/-!
# White space

The characters with the Unicode property `White_Space`, and the two ways texts
are cut at them: into words, and at both ends.
-/

namespace CoinSpend.Text

/-- The ranges of `White_Space`, first and last code point. -/
def blankRanges : List (Nat × Nat) :=
  [(0x0009, 0x000d), (0x0020, 0x0020), (0x0085, 0x0085), (0x00a0, 0x00a0),
   (0x1680, 0x1680), (0x2000, 0x200a), (0x2028, 0x2029), (0x202f, 0x202f),
   (0x205f, 0x205f), (0x3000, 0x3000)]

def isBlank (char : Char) : Bool :=
  blankRanges.any fun range => range.1 ≤ char.toNat && char.toNat ≤ range.2

/-- Put the finished word, which is held backwards, in front of the others. -/
def closeWord (word : List Char) (words : List (List Char)) : List (List Char) :=
  match word with
  | [] => words
  | _ :: _ => word.reverse :: words

/-- The words of a text after the backwards beginning of the current one. -/
def wordsFrom (word : List Char) : List Char → List (List Char)
  | [] => closeWord word []
  | char :: rest =>
      if isBlank char then
        closeWord word (wordsFrom [] rest)
      else
        wordsFrom (char :: word) rest

/-- The maximal blank-free pieces of a text, in order. -/
def words (text : List Char) : List (List Char) :=
  wordsFrom [] text

/-- A text without the blanks at its two ends. -/
def trim (text : List Char) : List Char :=
  ((text.dropWhile isBlank).reverse.dropWhile isBlank).reverse

/-- The pieces of a text between the occurrences of a separator. -/
def splitFrom (separator : Char) (piece : List Char) : List Char → List (List Char)
  | [] => [piece.reverse]
  | char :: rest =>
      if char = separator then
        piece.reverse :: splitFrom separator [] rest
      else
        splitFrom separator (char :: piece) rest

def split (separator : Char) (text : List Char) : List (List Char) :=
  splitFrom separator [] text

end CoinSpend.Text
