/-!
# Blank characters and trimming

A character is blank when it has the Unicode property `White_Space`.  The
property is given as a table of code point ranges; trimming and the blank test
of a text are defined from it.  The main statement says that a text trims to
nothing exactly when it has no character that is not blank.
-/

namespace MetricRates.Text

/-- The code points with the Unicode property `White_Space`, as closed ranges
in ascending order. -/
def blankRanges : List (Nat × Nat) :=
  [(0x09, 0x0D), (0x20, 0x20), (0x85, 0x85), (0xA0, 0xA0), (0x1680, 0x1680),
   (0x2000, 0x200A), (0x2028, 0x2029), (0x202F, 0x202F), (0x205F, 0x205F),
   (0x3000, 0x3000)]

/-- Whether a character has the Unicode property `White_Space`. -/
def isBlank (c : Char) : Bool :=
  blankRanges.any fun range => range.1 ≤ c.toNat && c.toNat ≤ range.2

/-- Drop the trailing characters that satisfy a test. -/
def dropEndWhile (test : Char → Bool) (cs : List Char) : List Char :=
  (cs.reverse.dropWhile test).reverse

/-- Drop the leading blank characters. -/
def trimStart (cs : List Char) : List Char :=
  cs.dropWhile isBlank

/-- Drop the blank characters at both ends. -/
def trimChars (cs : List Char) : List Char :=
  dropEndWhile isBlank (trimStart cs)

/-- Drop the blank characters at both ends of a string. -/
def trim (text : String) : String :=
  String.ofList (trimChars text.toList)

/-- Whether a text has no character that is not blank. -/
def allBlank (cs : List Char) : Bool :=
  cs.all isBlank

@[simp]
theorem toList_trim (text : String) : (trim text).toList = trimChars text.toList := by
  simp [trim]

/-- Dropping at the end keeps an initial part of the text. -/
theorem dropEndWhile_isPrefix (test : Char → Bool) (cs : List Char) :
    dropEndWhile test cs <+: cs := by
  have suffix := List.dropWhile_suffix test (l := cs.reverse)
  have := List.reverse_prefix.mpr suffix
  simpa [dropEndWhile] using this

private theorem dropWhile_eq_nil_iff {test : Char → Bool} {cs : List Char} :
    cs.dropWhile test = [] ↔ ∀ c ∈ cs, test c = true := by
  induction cs with
  | nil => simp
  | cons c rest ih => by_cases holds : test c = true <;> simp [holds, ih]

/-- Nothing is left of a text exactly when every character satisfies the test. -/
theorem dropEndWhile_eq_nil_iff {test : Char → Bool} {cs : List Char} :
    dropEndWhile test cs = [] ↔ ∀ c ∈ cs, test c = true := by
  rw [dropEndWhile, List.reverse_eq_nil_iff, dropWhile_eq_nil_iff]
  simp only [List.mem_reverse]

private theorem all_dropWhile_iff {test : Char → Bool} {cs : List Char} :
    (∀ c ∈ cs.dropWhile test, test c = true) ↔ ∀ c ∈ cs, test c = true := by
  induction cs with
  | nil => simp
  | cons c rest ih => by_cases holds : test c = true <;> simp [holds, ih]

/-- A text trims to nothing exactly when it is all blank. -/
theorem trimChars_eq_nil_iff {cs : List Char} : trimChars cs = [] ↔ allBlank cs = true := by
  simp [trimChars, dropEndWhile_eq_nil_iff, trimStart, allBlank, all_dropWhile_iff]

end MetricRates.Text
