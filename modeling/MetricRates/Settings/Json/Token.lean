import MetricRates.Number.Hexadecimal
import MetricRates.Settings.Json.Number

/-!
# Tokens of a JSON document

A document is cut into marks, strings and words; a word is a number or one of
the literal names.
-/

namespace MetricRates.Settings.Json

open Number

/-- A token.  A string whose escapes denote no text has no value. -/
inductive Token where
  | mark (c : Char)
  | string (value : Option String)
  | scalar (value : Value)

/-- Whether a character may stand between tokens. -/
def isGap (c : Char) : Bool :=
  c == ' ' || c == '\t' || c == '\n' || c == '\r'

/-- Whether a character is a token of its own. -/
def isMark (c : Char) : Bool :=
  c == '[' || c == ']' || c == '\x7b' || c == '\x7d' || c == ':' || c == ','

/-- Whether a character belongs to a word. -/
def isWordChar (c : Char) : Bool :=
  c.isAlphanum || c == '-' || c == '+' || c == '.'

/-! ## Strings -/

/-- The character that a letter stands for after a backslash. -/
def escaped? (c : Char) : Option Char :=
  match c with
  | '"' => some '"'
  | '\\' => some '\\'
  | '/' => some '/'
  | 'b' => some '\x08'
  | 'f' => some '\x0c'
  | 'n' => some '\n'
  | 'r' => some '\r'
  | 't' => some '\t'
  | _ => none

/-- The UTF-16 units of the rest of a string up to its closing quote, and what
follows the quote. -/
def readUnits? : List Char → Option (List (Char ⊕ Nat) × List Char)
  | '"' :: rest => some ([], rest)
  | '\\' :: 'u' :: a :: b :: c :: d :: rest => do
      let unit ← hexNumber? [a, b, c, d]
      let (units, rest) ← readUnits? rest
      some (.inr unit :: units, rest)
  | '\\' :: letter :: rest => do
      let c ← escaped? letter
      let (units, rest) ← readUnits? rest
      some (.inl c :: units, rest)
  | c :: rest =>
      if c.toNat < 0x20 || c == '\\' then none
      else (readUnits? rest).map fun (units, rest) => (.inl c :: units, rest)
  | [] => none

/-- What is left after a string is shorter than what was there. -/
theorem length_lt_of_readUnits? {cs rest : List Char} {units : List (Char ⊕ Nat)}
    (read : readUnits? cs = some (units, rest)) : rest.length < cs.length := by
  fun_induction readUnits? cs generalizing units rest with
  | case1 => simp_all
  | case2 a b c d tail ih =>
      simp only [Option.bind_eq_bind, Option.bind_eq_some_iff] at read
      obtain ⟨_, _, ⟨_, _⟩, tailRead, read⟩ := read
      cases read
      have := ih tailRead
      simp only [List.length_cons]
      omega
  | case3 letter tail _ ih =>
      simp only [Option.bind_eq_bind, Option.bind_eq_some_iff] at read
      obtain ⟨_, _, ⟨_, _⟩, tailRead, read⟩ := read
      cases read
      have := ih tailRead
      simp only [List.length_cons]
      omega
  | case4 => simp_all
  | case5 c tail _ _ _ _ ih =>
      simp only [Option.map_eq_some_iff] at read
      obtain ⟨⟨_, _⟩, tailRead, read⟩ := read
      cases read
      have := ih tailRead
      simp only [List.length_cons]
      omega
  | case6 => simp at read

/-- The characters of a sequence of characters and escaped units; surrogates
have to come in pairs. -/
def joinUnits? : List (Char ⊕ Nat) → Option (List Char)
  | [] => some []
  | .inl c :: rest => (joinUnits? rest).map (c :: ·)
  | .inr high :: .inr low :: rest =>
      if 0xD800 ≤ high ∧ high < 0xDC00 then
        if 0xDC00 ≤ low ∧ low < 0xE000 then
          let n := 0x10000 + (high - 0xD800) * 0x400 + (low - 0xDC00)
          (joinUnits? rest).map (Char.ofNat n :: ·)
        else none
      else if 0xDC00 ≤ high ∧ high < 0xE000 then none
      else (joinUnits? (.inr low :: rest)).map (Char.ofNat high :: ·)
  | .inr unit :: rest =>
      if 0xD800 ≤ unit ∧ unit < 0xE000 then none
      else (joinUnits? rest).map (Char.ofNat unit :: ·)

/-! ## Words -/

/-- The value of a word. -/
def wordValue? (word : List Char) : Option Value :=
  if word = "null".toList then some .null
  else if word = "true".toList then some (.bool true)
  else if word = "false".toList then some (.bool false)
  else readNumber? word

private theorem length_dropWhile_le (test : Char → Bool) (cs : List Char) :
    (cs.dropWhile test).length ≤ cs.length :=
  (List.dropWhile_suffix test).length_le

/-- The tokens of a document. -/
def tokens? : List Char → Option (List Token)
  | [] => some []
  | c :: rest =>
      if isGap c then tokens? rest
      else if isMark c then (tokens? rest).map (.mark c :: ·)
      else if c = '"' then
        match read : readUnits? rest with
        | none => none
        | some (units, after) =>
            have := length_lt_of_readUnits? read
            (tokens? after).map (.string ((joinUnits? units).map String.ofList) :: ·)
      else
        have := length_dropWhile_le isWordChar rest
        (wordValue? (c :: rest.takeWhile isWordChar)).bind fun value =>
          (tokens? (rest.dropWhile isWordChar)).map (.scalar value :: ·)
  termination_by cs => cs.length
  decreasing_by all_goals simp only [List.length_cons]; omega

end MetricRates.Settings.Json
