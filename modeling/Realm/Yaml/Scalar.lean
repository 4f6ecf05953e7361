/-! # Scalars of a YAML text

The characters of plain and quoted scalars, with line breaks folded: one break between two lines is
a space, further breaks are kept. -/

namespace Realm.Yaml

/-! ## Characters -/

def isBlank (c : Char) : Bool := c = ' ' || c = '\t'

def isBreak (c : Char) : Bool :=
  c = '\n' || c = '\r' || c = '\u0085' || c = '\u2028' || c = '\u2029'

def isSpace (c : Char) : Bool := isBlank c || isBreak c

/-- Whether a space, a line break or the end of the text comes next. -/
def atSpace : List Char → Bool
  | [] => true
  | c :: _ => isSpace c

def isFlowIndicator (c : Char) : Bool := [',', '[', ']', '\x7b', '\x7d'].contains c

/-- Characters that may stand in a text at all. -/
def isPrintable (c : Char) : Bool :=
  c = '\t' || c = '\n' || c = '\r' || c = '\u0085' ||
    (' ' ≤ c && c ≤ '~') || ('\u00a0' ≤ c && c.toNat ≠ 0xFFFE && c.toNat ≠ 0xFFFF)

/-! ## Places -/

/-- Where a character stands: its line, its column, and how many bytes come before it in the text. -/
structure Mark where
  line : Nat
  column : Nat
  offset : Nat
  deriving DecidableEq, Repr

/-- The place after a character, in the same line. -/
def Mark.past (m : Mark) (c : Char) : Mark :=
  { m with column := m.column + 1, offset := m.offset + c.utf8Size }

/-- The place after a line break. -/
def Mark.newline (m : Mark) (c : Char) : Mark := ⟨m.line + 1, 0, m.offset + c.utf8Size⟩

/-- The characters that are left, and where the first of them stands. -/
structure Cursor where
  mark : Mark
  rest : List Char
  deriving Repr

def Cursor.ofString (text : String) : Cursor := ⟨⟨0, 0, 0⟩, text.toList⟩

/-- The cursor `n` characters on in the same line. -/
def Cursor.advance (c : Cursor) (n : Nat) : Cursor :=
  ⟨(c.rest.take n).foldl Mark.past c.mark, c.rest.drop n⟩

/-- Whether a line starts with `---` or `...`. -/
def Cursor.atDocumentMark (c : Cursor) : Bool :=
  c.mark.column = 0 && match c.rest with
    | '-' :: '-' :: '-' :: rest => atSpace rest
    | '.' :: '.' :: '.' :: rest => atSpace rest
    | _ => false

/-! ## Gaps -/

/-- The blanks and line breaks between two runs of characters. -/
structure Gap where
  /-- The blanks before the first break. -/
  blanks : List Char := []
  broken : Bool := false
  first : Option Char := none
  further : List Char := []
  /-- The first break is written after a backslash and leaves nothing. -/
  hidden : Bool := false
  /-- A tab stands where only spaces may indent a line. -/
  badTab : Bool := false
  deriving Repr

namespace Gap

def addBlank (g : Gap) (c : Char) (indents : Bool) : Gap :=
  if g.broken then { g with badTab := g.badTab || (indents && c = '\t') }
  else { g with blanks := g.blanks ++ [c] }

def addBreak (g : Gap) (c : Char) : Gap :=
  if g.broken then { g with further := g.further ++ [c] }
  else { g with blanks := [], broken := true, first := if g.hidden then none else some c }

/-- What a gap leaves in the scalar. -/
def text (g : Gap) : List Char :=
  if !g.broken then g.blanks
  else if g.first = some '\n' then if g.further.isEmpty then [' '] else g.further
  else g.first.toList ++ g.further

/-- Adds to `g` all blanks and breaks that come next. Lines are indented up to column `indent`. -/
def read (indent : Nat) (g : Gap) (m : Mark) : List Char → Gap × Cursor
  | '\r' :: '\n' :: rest => read indent (g.addBreak '\n') ((m.past '\r').newline '\n') rest
  | c :: rest =>
    if isBlank c then read indent (g.addBlank c (m.column < indent)) (m.past c) rest
    else if isBreak c then
      let written := if c = '\u2028' || c = '\u2029' then c else '\n'
      read indent (g.addBreak written) (m.newline c) rest
    else (g, ⟨m, c :: rest⟩)
  | [] => (g, ⟨m, []⟩)

end Gap

/-! ## Plain scalars -/

/-- The characters up to a space, an indicator of a flow collection, or a colon that ends a key. -/
def plainRun (inFlow : Bool) : List Char → List Char
  | [] => []
  | c :: rest =>
    if isSpace c || (c = ':' && atSpace rest) || (inFlow && isFlowIndicator c) then []
    else c :: plainRun inFlow rest

/-- Whether a colon touches an indicator of a flow collection or a question mark. -/
def hasTightColon : List Char → Bool
  | ':' :: c :: rest => c = '?' || isFlowIndicator c || hasTightColon (c :: rest)
  | _ :: rest => hasTightColon rest
  | [] => false

/-- Goes on with a plain scalar after `text` and `gap`; its lines start at column `indent` or
later. The flag tells whether a line break follows the scalar. -/
def plainFrom (inFlow : Bool) (indent : Nat) (text : List Char) (gap : Gap) (c : Cursor) :
    Nat → Option (List Char × Bool × Cursor)
  | 0 => none
  | fuel + 1 =>
    let run := plainRun inFlow c.rest
    if c.atDocumentMark || c.rest.head? = some '#' || run.isEmpty then some (text, gap.broken, c)
    else if inFlow && hasTightColon (c.rest.take (run.length + 1)) then none
    else
      let text := text ++ gap.text ++ run
      let after := c.advance run.length
      if after.rest.isEmpty || !atSpace after.rest then some (text, false, after)
      else
        let (gap, next) := Gap.read indent {} after.mark after.rest
        if gap.badTab then none
        else if !inFlow && next.mark.column < indent then some (text, gap.broken, next)
        else plainFrom inFlow indent text gap next fuel

/-- The plain scalar at the cursor. -/
def plain (inFlow : Bool) (indent : Nat) (c : Cursor) : Option (String × Bool × Cursor) :=
  (plainFrom inFlow indent [] {} c (c.rest.length + 1)).map fun (text, broken, next) =>
    (String.ofList text, broken, next)

/-! ## Quoted scalars -/

/-- What a run of characters in quotes holds, what is left after it, and whether a backslash before
a line break ended it. -/
structure QuotedRun where
  text : List Char
  rest : List Char
  hidden : Bool := false

def QuotedRun.cons (c : Char) (r : QuotedRun) : QuotedRun := { r with text := c :: r.text }

/-- Between single quotes, a quote is written twice. -/
def singleRun : List Char → QuotedRun
  | '\'' :: '\'' :: rest => (singleRun rest).cons '\''
  | [] => ⟨[], [], false⟩
  | c :: rest =>
    if c = '\'' || isSpace c then ⟨[], c :: rest, false⟩ else (singleRun rest).cons c

/-- The character that a backslash and one letter stand for. -/
def escape? : Char → Option Char
  | '0' => some '\x00'
  | 'a' => some '\x07'
  | 'b' => some '\x08'
  | 't' => some '\t'
  | '\t' => some '\t'
  | 'n' => some '\n'
  | 'v' => some '\x0b'
  | 'f' => some '\x0c'
  | 'r' => some '\r'
  | 'e' => some '\x1b'
  | ' ' => some ' '
  | '"' => some '"'
  | '/' => some '/'
  | '\\' => some '\\'
  | 'N' => some '\u0085'
  | '_' => some '\u00a0'
  | 'L' => some '\u2028'
  | 'P' => some '\u2029'
  | _ => none

/-- How many hexadecimal digits follow a backslash and one letter. -/
def hexDigits? : Char → Option Nat
  | 'x' => some 2
  | 'u' => some 4
  | 'U' => some 8
  | _ => none

def hexDigit? (c : Char) : Option Nat :=
  if c.isDigit then some (c.toNat - '0'.toNat)
  else if 'a' ≤ c && c ≤ 'f' then some (c.toNat - 'a'.toNat + 10)
  else if 'A' ≤ c && c ≤ 'F' then some (c.toNat - 'A'.toNat + 10)
  else none

/-- The character with the code written by `digits`. -/
def charOfHex? (digits : List Char) : Option Char := do
  let code := (← digits.mapM hexDigit?).foldl (16 * · + ·) 0
  if code.isValidChar then some (Char.ofNat code) else none

/-- Between double quotes, a backslash starts an escape. -/
def doubleRun (cs : List Char) : Option QuotedRun :=
  match cs with
  | [] => some ⟨[], [], false⟩
  | ['\\'] => none
  | '\\' :: c :: rest =>
    if isBreak c then some ⟨[], c :: rest, true⟩
    else match escape? c with
      | some e => (doubleRun rest).map (·.cons e)
      | none => do
        let n ← hexDigits? c
        if rest.length < n then none
        let e ← charOfHex? (rest.take n)
        (doubleRun (rest.drop n)).map (·.cons e)
  | c :: rest =>
    if c = '"' || isSpace c then some ⟨[], c :: rest, false⟩ else (doubleRun rest).map (·.cons c)
termination_by cs.length
decreasing_by all_goals simp <;> omega

/-- Goes on with a quoted scalar after `text`, up to the closing `quote`. -/
def quotedFrom (quote : Char) (text : List Char) (c : Cursor) : Nat → Option (List Char × Cursor)
  | 0 => none
  | fuel + 1 => do
    if c.atDocumentMark || c.rest.isEmpty then none
    let run ← if quote = '"' then doubleRun c.rest else some (singleRun c.rest)
    let after := c.advance (c.rest.length - run.rest.length)
    let text := text ++ run.text
    if run.rest.head? = some quote then some (text, after.advance 1)
    else
      let (gap, next) := Gap.read 0 { hidden := run.hidden } after.mark after.rest
      quotedFrom quote (text ++ gap.text) next fuel

/-- The quoted scalar whose opening quote is at the cursor. -/
def quoted (quote : Char) (c : Cursor) : Option (String × Cursor) :=
  (quotedFrom quote [] (c.advance 1) (c.rest.length + 1)).map fun (text, next) =>
    (String.ofList text, next)

end Realm.Yaml
