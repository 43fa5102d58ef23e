import TurtlePlayback.Canvas.Picture

namespace TurtlePlayback.Canvas.Png

def bigEndian (n : Nat) : ByteArray :=
  ⟨#[.ofNat (n >>> 24), .ofNat (n >>> 16), .ofNat (n >>> 8), .ofNat n]⟩

def littleEndian (n : Nat) : ByteArray :=
  ⟨#[.ofNat n, .ofNat (n >>> 8)]⟩

/-- One bit out of the remainder of the division by the polynomial of CRC-32, lowest power in the
highest bit. -/
def crcShift (c : UInt32) : UInt32 :=
  if c &&& 1 = 1 then (c >>> 1) ^^^ 0xedb88320 else c >>> 1

def crcByte (c : UInt32) (b : UInt8) : UInt32 :=
  Nat.repeat crcShift 8 (c ^^^ b.toUInt32)

def crc (bytes : ByteArray) : UInt32 :=
  bytes.foldl crcByte 0xffffffff ^^^ 0xffffffff

def adler (bytes : ByteArray) : Nat :=
  let (a, b) := bytes.foldl (fun (a, b) x =>
    let a := (a + x.toNat) % 65521
    (a, (b + a) % 65521)) (1, 0)
  b * 65536 + a

def storedFrom (bytes : ByteArray) (i : Nat) (out : ByteArray) : ByteArray :=
  let size := min 65535 (bytes.size - i)
  let last := bytes.size ≤ i + size
  let out := (out.push (if last then 1 else 0)) ++ littleEndian size ++ littleEndian (65535 - size) ++
    bytes.extract i (i + size)
  if last then out else storedFrom bytes (i + size) out
termination_by bytes.size - i
decreasing_by omega

def compressed (bytes : ByteArray) : ByteArray :=
  storedFrom bytes 0 ⟨#[0x78, 0x01]⟩ ++ bigEndian (adler bytes)

def chunk (kind : String) (content : ByteArray) : ByteArray :=
  let body := kind.toUTF8 ++ content
  bigEndian content.size ++ body ++ bigEndian (crc body).toNat

def rows (p : Picture) : ByteArray :=
  (List.range p.height).foldl (fun out y =>
    out.push 0 ++ p.data.extract (4 * p.width * y) (4 * p.width * (y + 1))) .empty

def encode (p : Picture) : ByteArray :=
  ⟨#[0x89, 0x50, 0x4e, 0x47, 0x0d, 0x0a, 0x1a, 0x0a]⟩ ++
    chunk "IHDR" (bigEndian p.width ++ bigEndian p.height ++ ⟨#[8, 6, 0, 0, 0]⟩) ++
    chunk "IDAT" (compressed (rows p)) ++ chunk "IEND" .empty

end TurtlePlayback.Canvas.Png
