import DrawingDiary.Picture.Basic
import DrawingDiary.Png.Deflate

/-!
# Writing a picture as a PNG file

A file is a signature and a sequence of chunks. The samples are written as they
are: eight or sixteen bits each, no filter, no interlacing. A picture without
pixels has no such file.
-/

namespace DrawingDiary.Png

def signature : ByteArray := ⟨#[0x89, 0x50, 0x4e, 0x47, 0x0d, 0x0a, 0x1a, 0x0a]⟩

/-- A chunk: its length, its type, its data, and a check over the last two. -/
def chunk (type : String) (data : ByteArray) : ByteArray :=
  let body := type.toUTF8 ++ data
  wordBytes data.size.toUInt32 ++ body ++ wordBytes (crc32 body)

/-- The number by which the file names a colour layout. -/
def colorNumber (color : ColorType) : UInt8 :=
  match color.channels with
  | 1 => 0
  | 2 => 4
  | 3 => 2
  | _ => 6

/-- The header of a picture: its size and layout. -/
def headerData (p : Picture) : ByteArray :=
  wordBytes p.width.toUInt32 ++ wordBytes p.height.toUInt32 ++
    ⟨#[(8 * p.color.sampleBytes).toUInt8, colorNumber p.color, 0, 0, 0]⟩

/-- The rows of a picture, each behind the number of its filter, which is none. -/
def filteredRows (p : Picture) : ByteArray :=
  let rowBytes := p.width * p.color.pixelBytes
  (List.range p.height).foldl (fun out y =>
    out.push 0 ++ p.samples.extract (y * rowBytes) ((y + 1) * rowBytes)) ByteArray.empty

/-- The file of a picture; there is none for a picture without pixels. -/
def encode (p : Picture) : Option ByteArray :=
  if p.width = 0 ∨ p.height = 0 then none
  else some (signature ++ chunk "IHDR" (headerData p) ++ chunk "IDAT" (store (filteredRows p)) ++
    chunk "IEND" ByteArray.empty)

end DrawingDiary.Png
