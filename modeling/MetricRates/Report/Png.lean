/-!
# PNG files

A picture is stored as a PNG file: a signature and chunks, each with a checksum.
The pixels are black or white, one bit each, and they are stored without
compression.
-/

namespace MetricRates.Report.Png

/-! ## Numbers as bytes -/

/-- The last bytes of a number, the most significant one first. -/
def bigEndian (count n : Nat) : List UInt8 :=
  ((List.range count).map fun place => (n / Nat.pow 256 place).toUInt8).reverse

/-- The last bytes of a number, the least significant one first. -/
def littleEndian (count n : Nat) : List UInt8 :=
  (bigEndian count n).reverse

/-! ## Checksums -/

/-- Shift one bit out of a remainder. -/
def shiftOut (remainder : UInt32) : UInt32 :=
  if remainder &&& 1 = 1 then (remainder >>> 1) ^^^ 0xEDB88320 else remainder >>> 1

/-- Take one byte into a remainder. -/
def takeByte (remainder : UInt32) (byte : UInt8) : UInt32 :=
  Nat.repeat shiftOut 8 (remainder ^^^ byte.toUInt32)

/-- The cyclic redundancy check of a chunk. -/
def chunkChecksum (bytes : List UInt8) : Nat :=
  (bytes.foldl takeByte 0xFFFFFFFF ^^^ 0xFFFFFFFF).toNat

/-- The number that the two sums of stored data are taken modulo. -/
def sumModulus : Nat := 65521

/-- The two running sums that check stored data. -/
def dataChecksum (bytes : List UInt8) : Nat :=
  let sums := bytes.foldl
    (fun (sums : Nat × Nat) byte =>
      let first := (sums.1 + byte.toNat) % sumModulus
      (first, (sums.2 + first) % sumModulus))
    (1, 0)
  sums.2 * 65536 + sums.1

/-! ## Stored data -/

/-- The largest number of bytes in a block. -/
def maxBlockSize : Nat := 65535

/-- A block of stored bytes. -/
def block (isLast : Bool) (bytes : List UInt8) : List UInt8 :=
  (if isLast then 1 else 0) :: (littleEndian 2 bytes.length ++
    littleEndian 2 (maxBlockSize - bytes.length) ++ bytes)

/-- Some bytes as blocks. -/
def blocks (bytes : List UInt8) : List UInt8 :=
  if bytes.length ≤ maxBlockSize then block true bytes
  else block false (bytes.take maxBlockSize) ++ blocks (bytes.drop maxBlockSize)
  termination_by bytes.length
  decreasing_by simp only [List.length_drop, maxBlockSize] at *; omega

/-- Some bytes as a stream without compression. -/
def stream (bytes : List UInt8) : List UInt8 :=
  [0x78, 0x01] ++ blocks bytes ++ bigEndian 4 (dataChecksum bytes)

/-! ## Chunks -/

/-- A chunk of a kind. -/
def chunk (kind : String) (content : List UInt8) : List UInt8 :=
  let checked := kind.toUTF8.toList ++ content
  bigEndian 4 content.length ++ checked ++ bigEndian 4 (chunkChecksum checked)

/-- The bytes that every file starts with. -/
def signature : List UInt8 :=
  [0x89, 0x50, 0x4E, 0x47, 0x0D, 0x0A, 0x1A, 0x0A]

/-- The header of a picture with one bit for each pixel. -/
def header (width height : Nat) : List UInt8 :=
  chunk "IHDR" (bigEndian 4 width ++ bigEndian 4 height ++ [1, 0, 0, 0, 0])

/-- A white row. -/
def whiteRow (width : Nat) : List UInt8 :=
  0 :: List.replicate ((width + 7) / 8) 0xFF

/-- The file of a white picture. -/
def whitePicture (width height : Nat) : List UInt8 :=
  signature ++ header width height ++
    chunk "IDAT" (stream (List.replicate height (whiteRow width)).flatten) ++
    chunk "IEND" []

end MetricRates.Report.Png
