import DrawingDiary.Png.Huffman

/-!
# Reading compressed data

`inflate` reads data of all three kinds of blocks: stored, and coded with the
fixed or with a transmitted Huffman code. It writes no more bytes than are asked
for. Data that ends too early gives the bytes read so far; data that breaks the
format gives none, also where it does so right behind the last byte asked for.

Reading consumes bits, so the number of bits bounds every loop; this bound is
the explicit fuel of the recursions.
-/

namespace DrawingDiary.Png

/-- Why a part of the data cannot be read: it breaks the format, or ends too early. -/
inductive InflateStop where
  | faulty
  | unfinished

/-- Where reading stands behind a block: the position in bits, what has been read
out, and whether no more can be. -/
structure Inflating where
  position : Nat
  output : ByteArray
  atEnd : Bool

/-- The code of literals and lengths that needs not be transmitted. -/
def fixedLiterals : Huffman :=
  .ofLengths (List.replicate 144 8 ++ List.replicate 112 9 ++ List.replicate 24 7 ++
    List.replicate 8 8)

/-- The code of distances that needs not be transmitted. -/
def fixedDistances : Huffman := .ofLengths (List.replicate 32 5)

/-- The shortest copy of each length symbol and the width of what is added. -/
def lengthBases : Array (Nat × Nat) :=
  #[(3, 0), (4, 0), (5, 0), (6, 0), (7, 0), (8, 0), (9, 0), (10, 0), (11, 1), (13, 1), (15, 1),
    (17, 1), (19, 2), (23, 2), (27, 2), (31, 2), (35, 3), (43, 3), (51, 3), (59, 3), (67, 4),
    (83, 4), (99, 4), (115, 4), (131, 5), (163, 5), (195, 5), (227, 5), (258, 0)]

/-- The nearest copy of each distance symbol and the width of what is added. -/
def distanceBases : Array (Nat × Nat) :=
  #[(1, 0), (2, 0), (3, 0), (4, 0), (5, 1), (7, 1), (9, 2), (13, 2), (17, 3), (25, 3), (33, 4),
    (49, 4), (65, 5), (97, 5), (129, 6), (193, 6), (257, 7), (385, 7), (513, 8), (769, 8),
    (1025, 9), (1537, 9), (2049, 10), (3073, 10), (4097, 11), (6145, 11), (8193, 12), (12289, 12),
    (16385, 13), (24577, 13)]

def endOfBlock : Nat := 256

/-- Repeats bytes written before, one by one, so a copy may overlap itself. -/
def copyBack (distance : Nat) : Nat → ByteArray → ByteArray
  | 0, output => output
  | count + 1, output =>
    copyBack distance count (output.push (output[output.size - distance]?.getD 0))

/-- Whether a literal has to wait for more data. Two literals whose words take at
most twelve bits together are read in one step, and a step needs all its bits. -/
def awaitsPartner (bytes : ByteArray) (literals : Huffman) (position behind : Nat) : Bool :=
  decide (8 * bytes.size < position + 12) &&
    match literals.read bytes behind with
    | some (partner, stop) =>
      decide (partner < 256 ∧ stop ≤ position + 12 ∧ 8 * bytes.size < stop)
    | none => false

/-- The symbols of a coded block up to its end mark, read from a position and
written behind the output so far. Once all bytes asked for are written, the end
mark is still taken if the data goes on for the longest word. -/
def codedBlock (bytes : ByteArray) (limit : Nat) (literals distances : Huffman) :
    Nat → Nat → ByteArray → Option Inflating
  | 0, start, output => some ⟨start, output, true⟩
  | fuel + 1, start, output => do
    let (symbol, position) ← literals.read bytes start
    if limit ≤ output.size then
      if symbol = endOfBlock ∧ start + longestWord ≤ 8 * bytes.size then
        some ⟨position, output, false⟩
      else some ⟨start, output, true⟩
    else if 8 * bytes.size < position then some ⟨start, output, true⟩
    else if symbol < 256 then
      if awaitsPartner bytes literals start position then some ⟨start, output, true⟩
      else codedBlock bytes limit literals distances fuel position (output.push symbol.toUInt8)
    else if symbol = endOfBlock then some ⟨position, output, false⟩
    else
      let (shortest, width) ← lengthBases[symbol - 257]?
      let count := shortest + bitsAt bytes position width
      let (symbol, position) ← distances.read bytes (position + width)
      let (nearest, width) ← distanceBases[symbol]?
      let distance := nearest + bitsAt bytes position width
      let room := limit - output.size
      if 8 * bytes.size < position + width then some ⟨start, output, true⟩
      else if output.size < distance then none
      else if room < count then some ⟨start, copyBack distance room output, true⟩
      else
        codedBlock bytes limit literals distances fuel (position + width)
          (copyBack distance count output)

/-- The order in which the lengths of the code for lengths are transmitted. -/
def lengthOrder : List Nat := [16, 17, 18, 0, 8, 7, 9, 6, 10, 5, 11, 4, 12, 3, 13, 2, 14, 1, 15]

/-- The transmitted lengths of codes, with repetitions spelled out, in reverse.
Seven bits must be there for each, as many as the longest word takes. -/
def codeLengths (bytes : ByteArray) (code : Huffman) (count : Nat) :
    Nat → Nat → List Nat → Except InflateStop (List Nat × Nat)
  | 0, _, _ => .error .unfinished
  | fuel + 1, position, lengths =>
    let missing := count - lengths.length
    if missing = 0 then .ok (lengths, position)
    else if 8 * bytes.size < position + 7 then .error .unfinished
    else
      let repeated (position width shortest : Nat) (length? : Option Nat) :=
        let times := shortest + bitsAt bytes position width
        if 8 * bytes.size < position + width then .error .unfinished
        else
          match length? with
          | none => .error .faulty
          | some length =>
            if missing < times then .error .faulty
            else
              codeLengths bytes code count fuel (position + width)
                (List.replicate times length ++ lengths)
      match code.read bytes position with
      | none => .error .faulty
      | some (16, position) => repeated position 2 3 lengths.head?
      | some (17, position) => repeated position 3 3 (some 0)
      | some (18, position) => repeated position 7 11 (some 0)
      | some (length, position) => codeLengths bytes code count fuel position (length :: lengths)

/-- The two transmitted codes of a block and the position behind them. -/
def transmittedCodes (bytes : ByteArray) (position : Nat) :
    Except InflateStop (Huffman × Huffman × Nat) := do
  let literalCount := 257 + bitsAt bytes position 5
  let distanceCount := 1 + bitsAt bytes (position + 5) 5
  let orderCount := 4 + bitsAt bytes (position + 10) 4
  let position := position + 14
  if 8 * bytes.size < position then throw .unfinished
  if 286 < literalCount ∨ 30 < distanceCount then throw .faulty
  if 8 * bytes.size < position + 3 * orderCount then throw .unfinished
  let transmitted := (lengthOrder.take orderCount).zipIdx.map fun s =>
    (s.1, bitsAt bytes (position + 3 * s.2) 3)
  let some code := Huffman.complete? ((List.range 19).map fun i => (transmitted.lookup i).getD 0)
    | throw .faulty
  let (lengths, position) ← codeLengths bytes code (literalCount + distanceCount) 400
    (position + 3 * orderCount) []
  let (ofLiterals, ofDistances) := lengths.reverse.splitAt literalCount
  if ofLiterals.getD endOfBlock 0 = 0 then throw .faulty
  match Huffman.complete? ofLiterals, Huffman.distances? ofDistances with
  | some literals, some distances => return (literals, distances, position)
  | _, _ => throw .faulty

/-- A stored block: whole bytes after a length that is written twice. -/
def storedBlock (bytes : ByteArray) (limit position : Nat) (output : ByteArray) :
    Option Inflating :=
  let start := (position + 7) / 8
  let size := byteAt bytes start + 256 * byteAt bytes (start + 1)
  let check := byteAt bytes (start + 2) + 256 * byteAt bytes (start + 3)
  if bytes.size < start + 4 then some ⟨position, output, true⟩
  else if size + check ≠ 65535 then none
  else
    let taken := min size (min (bytes.size - (start + 4)) (limit - output.size))
    some ⟨8 * (start + 4 + taken), output ++ bytes.extract (start + 4) (start + 4 + taken),
      decide (taken < size)⟩

/-- The block at a position, behind the three bits that say of what kind it is. -/
def block (bytes : ByteArray) (limit kind position : Nat) (output : ByteArray) :
    Option Inflating :=
  let fuel := 8 * bytes.size + 1
  match kind with
  | 0 => storedBlock bytes limit position output
  | 1 => codedBlock bytes limit fixedLiterals fixedDistances fuel position output
  | 2 =>
    match transmittedCodes bytes position with
    | .error .faulty => none
    | .error .unfinished => some ⟨position, output, true⟩
    | .ok (literals, distances, position) =>
      codedBlock bytes limit literals distances fuel position output
  | _ => none

def inflateBlocks (bytes : ByteArray) (limit : Nat) : Nat → Nat → ByteArray → Option ByteArray
  | 0, _, output => some output
  | fuel + 1, position, output =>
    if 8 * bytes.size < position + 3 then some output
    else do
      let last := bitAt bytes position
      let next ← block bytes limit (bitsAt bytes (position + 1) 2) (position + 3) output
      if last = 1 ∨ next.atEnd then some next.output
      else inflateBlocks bytes limit fuel next.position next.output

/-- The bytes that compressed data stands for, at most as many as asked for. -/
def inflate (data : ByteArray) (limit : Nat) : Option ByteArray :=
  if data.size < 2 then some ByteArray.empty
  else if (byteAt data 0) % 16 ≠ 8 ∨ 128 ≤ byteAt data 0 ∨
      (256 * byteAt data 0 + byteAt data 1) % 31 ≠ 0 ∨ (byteAt data 1 / 32) % 2 = 1 then none
  else
    let body := data.extract 2 data.size
    inflateBlocks body limit (8 * body.size + 1) 0 ByteArray.empty

end DrawingDiary.Png
