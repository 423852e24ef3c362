import DrawingDiary.Png.Checksum

/-!
# Bits and Huffman codes

Compressed data is read bit by bit, the lowest bit of each byte first, and is
taken to go on with zeros behind its end. A Huffman code is given by the lengths
of its words: shorter words come first, and words of one length in the order of
their symbols. A code is complete when its words use up all bit sequences, which
is what `kraftSum` measures.
-/

namespace DrawingDiary.Png

/-- One bit, the lowest of a byte first; zero behind the end. -/
def bitAt (bytes : ByteArray) (i : Nat) : Nat := (byteAt bytes (i / 8) >>> (i % 8)) % 2

/-- A number of the given width, its lowest bit first. -/
def bitsAt (bytes : ByteArray) (position width : Nat) : Nat :=
  (List.range width).foldr (fun i value => bitAt bytes (position + i) + 2 * value) 0

def longestWord : Nat := 15

/-- The share of all bit sequences that words of these lengths use up, in units of
the longest word; a length of zero is no word. -/
def kraftSum (lengths : List Nat) : Nat :=
  (lengths.map fun l => if l = 0 then 0 else Nat.pow 2 (longestWord - l)).foldr (· + ·) 0

/-- Whether words of these lengths use up all bit sequences and none twice. -/
def isComplete (lengths : List Nat) : Bool := kraftSum lengths == Nat.pow 2 longestWord

/-- A Huffman code: how many symbols have each length, and the symbols ordered
by length and then by number. -/
structure Huffman where
  counts : Array Nat
  symbols : Array Nat

namespace Huffman

/-- The code in which symbol `i` has the `i`-th length; zero is no word. -/
def ofLengths (lengths : List Nat) : Huffman :=
  let numbered := lengths.zipIdx
  ⟨Array.ofFn fun l : Fin (longestWord + 1) => if l.val = 0 then 0 else lengths.count l.val,
    ((List.range (longestWord + 1)).drop 1 |>.flatMap fun l =>
      (numbered.filter fun s => s.1 == l).map (·.2)).toArray⟩

/-- A complete code, as literals and lengths of codes need it. -/
def complete? (lengths : List Nat) : Option Huffman :=
  if isComplete lengths then some (ofLengths lengths) else none

/-- A code of distances: complete, empty, or a single word of one bit. -/
def distances? (lengths : List Nat) : Option Huffman :=
  let words := lengths.filter (0 < ·)
  if isComplete lengths ∨ words = [] ∨ words = [1] then some (ofLengths lengths) else none

/-- Reads a symbol bit by bit; the first number bounds the length of a word. -/
def readFrom (h : Huffman) (bytes : ByteArray) :
    Nat → Nat → Nat → Nat → Nat → Nat → Option (Nat × Nat)
  | 0, _, _, _, _, _ => none
  | fuel + 1, length, code, first, index, position =>
    let code := code + bitAt bytes position
    let count := h.counts.getD length 0
    if code < first + count then
      some (h.symbols.getD (index + (code - first)) 0, position + 1)
    else
      readFrom h bytes fuel (length + 1) (2 * code) (2 * (first + count)) (index + count)
        (position + 1)

/-- The symbol at a position and the position behind it, if its bits are a word. -/
def read (h : Huffman) (bytes : ByteArray) (position : Nat) : Option (Nat × Nat) :=
  h.readFrom bytes longestWord 1 0 0 0 position

end Huffman

end DrawingDiary.Png
