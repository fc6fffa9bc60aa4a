import MetricRates.Text.Blank

/-!
# Reading bytes as UTF-8

A byte sequence is cut into chunks: a well-formed sequence of one character, or
a maximal piece of an ill-formed one.  Strict reading accepts only sequences
without ill-formed chunks; lossy reading puts the replacement character in the
place of each ill-formed chunk.
-/

namespace MetricRates.Text

/-- The closed ranges that the bytes after a lead byte must lie in, or `none`
for a byte that starts no character. -/
def tailRanges (lead : UInt8) : Option (List (UInt8 × UInt8)) :=
  if lead < 0x80 then some []
  else if lead < 0xC2 then none
  else if lead < 0xE0 then some [(0x80, 0xBF)]
  else if lead = 0xE0 then some [(0xA0, 0xBF), (0x80, 0xBF)]
  else if lead = 0xED then some [(0x80, 0x9F), (0x80, 0xBF)]
  else if lead < 0xF0 then some [(0x80, 0xBF), (0x80, 0xBF)]
  else if lead = 0xF0 then some [(0x90, 0xBF), (0x80, 0xBF), (0x80, 0xBF)]
  else if lead < 0xF4 then some [(0x80, 0xBF), (0x80, 0xBF), (0x80, 0xBF)]
  else if lead = 0xF4 then some [(0x80, 0x8F), (0x80, 0xBF), (0x80, 0xBF)]
  else none

/-- The longest initial part of the bytes that follows the ranges one by one. -/
def matchTail : List (UInt8 × UInt8) → List UInt8 → List UInt8
  | (low, high) :: ranges, byte :: bytes =>
      if low ≤ byte && byte ≤ high then byte :: matchTail ranges bytes else []
  | _, _ => []

/-- The code point with a lead byte and its tail. -/
def codePoint (lead : UInt8) (tail : List UInt8) : Nat :=
  let leadBits :=
    match tail.length with
    | 0 => lead.toNat
    | 1 => lead.toNat % 32
    | 2 => lead.toNat % 16
    | _ => lead.toNat % 8
  tail.foldl (fun value byte => value * 64 + byte.toNat % 64) leadBits

/-- A piece of a byte sequence: one character, or bytes that are none. -/
inductive Chunk where
  | char (c : Char) (size : Nat)
  | illFormed (size : Nat)
  deriving DecidableEq, Repr

/-- How many bytes a chunk takes. -/
def Chunk.size : Chunk → Nat
  | .char _ size => size
  | .illFormed size => size

/-- The chunk at the start of a byte sequence with the given lead byte. -/
def firstChunk (lead : UInt8) (rest : List UInt8) : Chunk :=
  match tailRanges lead with
  | none => .illFormed 1
  | some ranges =>
      let tail := matchTail ranges rest
      if tail.length = ranges.length then
        .char (Char.ofNat (codePoint lead tail)) (1 + tail.length)
      else
        .illFormed (1 + tail.length)

/-- Cut a byte sequence into chunks. -/
def chunks : List UInt8 → List Chunk
  | [] => []
  | lead :: rest =>
      let chunk := firstChunk lead rest
      chunk :: chunks (rest.drop (chunk.size - 1))
  termination_by bytes => bytes.length
  decreasing_by simp only [List.length_drop, List.length_cons]; omega

/-- The characters of a sequence of chunks, when none is ill-formed. -/
def wellFormedChars : List Chunk → Option (List Char)
  | [] => some []
  | .char c _ :: rest => (wellFormedChars rest).map (c :: ·)
  | .illFormed _ :: _ => none

/-- Strict reading: the text of well-formed UTF-8. -/
def decodeUtf8? (bytes : List UInt8) : Option (List Char) :=
  wellFormedChars (chunks bytes)

/-- Lossy reading: each ill-formed chunk becomes the replacement character. -/
def decodeUtf8Lossy (bytes : List UInt8) : List Char :=
  (chunks bytes).map fun
    | .char c _ => c
    | .illFormed _ => '\uFFFD'

/-- How many bytes precede the first ill-formed chunk. -/
def wellFormedLength : List Chunk → Nat
  | .char _ size :: rest => size + wellFormedLength rest
  | _ => 0

/-- The length of the longest initial part that is well-formed UTF-8. -/
def validUpTo (bytes : List UInt8) : Nat :=
  wellFormedLength (chunks bytes)

@[simp]
theorem chunks_nil : chunks [] = [] := by
  simp [chunks]

@[simp]
theorem decodeUtf8?_nil : decodeUtf8? [] = some [] := by
  simp [decodeUtf8?, wellFormedChars]

/-- Where strict reading succeeds, lossy reading gives the same text. -/
theorem decodeUtf8Lossy_eq_of_decodeUtf8? {bytes : List UInt8} {cs : List Char}
    (decoded : decodeUtf8? bytes = some cs) : decodeUtf8Lossy bytes = cs := by
  unfold decodeUtf8? at decoded
  unfold decodeUtf8Lossy
  generalize chunks bytes = pieces at decoded
  induction pieces generalizing cs with
  | nil => simp_all [wellFormedChars]
  | cons piece pieces ih =>
      cases piece with
      | char c size =>
          simp only [wellFormedChars, Option.map_eq_some_iff] at decoded
          obtain ⟨tail, tailDecoded, rfl⟩ := decoded
          simp [ih tailDecoded]
      | illFormed size => simp [wellFormedChars] at decoded

end MetricRates.Text
