/-!
# Text for terminals

A terminal takes some characters as commands: an escape character begins a
sequence that sets colors or titles.  Where the output is no terminal, the
sequences are left out, and so are all control characters but the blank ones.
-/

namespace MetricRates.Text.Terminal

/-- The character that begins a sequence. -/
def escape : Char := '\x1b'

/-- What a terminal is reading. -/
inductive State where
  /-- Characters to show. -/
  | shown
  /-- The kind of a sequence. -/
  | kind
  /-- The last character of a sequence after intermediate ones. -/
  | last
  /-- The parameters of a control sequence. -/
  | parameters
  /-- A title, which a bell ends. -/
  | title
  /-- A string for a device. -/
  | string
  deriving DecidableEq, Repr

/-- Whether a control character is blank. -/
def isBlankControl (c : Char) : Bool :=
  c == '\t' || c == '\n' || c == '\x0c' || c == '\r'

/-- Whether a character is not a control character of the terminal. -/
def isGraphic (c : Char) : Bool :=
  ' ' ≤ c && c != '\x7f'

/-- Whether a character is shown as such where no sequence is being read. -/
def isShown (c : Char) : Bool :=
  isGraphic c || isBlankControl c

/-- Whether a character is shown.  A blank control character is also shown in
the middle of a sequence, which it breaks off. -/
def State.shows : State → Char → Bool
  | .shown, c => isShown c
  | .kind, c | .last, c | .parameters, c => isBlankControl c
  | .title, _ | .string, _ => false

/-- Whether a character has the byte that ends a string for a device. -/
def endsString (c : Char) : Bool :=
  (String.singleton c).toUTF8.toList.contains 0x9c

/-- What the kind of a sequence leads to. -/
def afterKind (c : Char) : State :=
  if c < ' ' || '~' < c then .kind
  else if c < '0' then .last
  else if c = '[' then .parameters
  else if c = ']' then .title
  else if c = 'P' || c = 'X' || c = '^' || c = '_' then .string
  else .shown

/-- What is read after a character that is not shown. -/
def State.after (state : State) (c : Char) : State :=
  if c = escape then .kind
  else if c = '\x18' || c = '\x1a' then .shown
  else
    match state with
    | .shown => .shown
    | .kind => afterKind c
    | .last => if '0' ≤ c && c ≤ '~' then .shown else .last
    | .parameters => if '@' ≤ c && c ≤ '~' then .shown else .parameters
    | .title => if c = '\x07' then .shown else .title
    | .string => if endsString c then .shown else .string

/-- The characters that are shown. -/
def shownFrom : State → List Char → List Char
  | _, [] => []
  | state, c :: rest =>
      if state.shows c then c :: shownFrom .shown rest else shownFrom (state.after c) rest

/-- A text without what a terminal would take as commands. -/
def plainText (text : String) : String :=
  String.ofList (shownFrom .shown text.toList)

end MetricRates.Text.Terminal
