import Realm.Yaml.Scalar

/-! # Tokens of a YAML text

Indentation becomes explicit: the start and end of each block collection, and the start of each key,
are tokens of their own. A key is only known to be one at its colon, so the tokens for it are put in
where the key started. -/

namespace Realm.Yaml

/-- A quoted scalar is text even where a plain one would be a number. -/
inductive Style where
  | plain
  | quoted
  deriving DecidableEq, Repr

inductive Token where
  | documentStart
  | documentEnd
  | blockSequenceStart
  | blockMappingStart
  | blockEnd
  | flowSequenceStart
  | flowSequenceEnd
  | flowMappingStart
  | flowMappingEnd
  | dash
  | comma
  | key
  | value
  | scalar (style : Style) (text : String)
  deriving DecidableEq, Repr

/-! ## The state between two tokens -/

/-- Where a key may have started. -/
structure KeyStart where
  /-- How many tokens stand before it. -/
  index : Nat
  mark : Mark
  /-- The indentation leaves no other reading. -/
  required : Bool
  deriving Repr

structure Layout where
  cursor : Cursor
  /-- The tokens so far, the last one first. -/
  tokens : List Token := []
  /-- The columns of the open block collections, the innermost first. -/
  columns : List Nat := []
  /-- For each open flow collection, and last for the block around them, the key that may have
  started there. -/
  keys : List (Option KeyStart) := [none]
  keyAllowed : Bool := true

namespace Layout

def inFlow (l : Layout) : Bool := 1 < l.keys.length

def column (l : Layout) : Nat := l.cursor.mark.column

def push (l : Layout) (t : Token) : Layout := { l with tokens := t :: l.tokens }

def advance (l : Layout) (n : Nat) : Layout := { l with cursor := l.cursor.advance n }

/-- Puts a token in before all but the first `index` tokens. -/
def insertAt (l : Layout) (index : Nat) (t : Token) : Layout :=
  let later := l.tokens.length - index
  { l with tokens := l.tokens.take later ++ t :: l.tokens.drop later }

/-! ## Indentation -/

/-- Opens a block collection at `column` if it lies right of all open ones. -/
def indent (l : Layout) (column index : Nat) (start : Token) : Layout :=
  if l.inFlow || !l.columns.head?.all (· < column) then l
  else { l.insertAt index start with columns := column :: l.columns }

/-- Closes the block collections that `p` picks from the innermost outwards. -/
def dedentWhile (p : Nat → Bool) (l : Layout) : Layout :=
  let closed := l.columns.takeWhile p
  { l with
    tokens := List.replicate closed.length .blockEnd ++ l.tokens
    columns := l.columns.drop closed.length }

def dedent (l : Layout) (column : Nat) : Layout :=
  if l.inFlow then l else l.dedentWhile (column < ·)

def dedentAll (l : Layout) : Layout := if l.inFlow then l else l.dedentWhile fun _ => true

/-! ## Keys -/

/-- A key ends in the line where it starts, at most 1024 bytes on. -/
def dropStaleKeys (l : Layout) : Option Layout := do
  let mark := l.cursor.mark
  let keys ← l.keys.mapM fun key =>
    match key with
    | none => some none
    | some start =>
      if start.mark.line < mark.line || start.mark.offset + 1024 < mark.offset then
        if start.required then none else some none
      else some (some start)
  return { l with keys }

/-- Gives up the reading that a key started at the innermost level. -/
def dropKey (l : Layout) : Option Layout :=
  match l.keys with
  | [] => none
  | key :: keys =>
    if (key.map (·.required)).getD false then none else some { l with keys := none :: keys }

/-- Notes that the next token may start a key. -/
def markKey (l : Layout) : Option Layout :=
  if !l.keyAllowed then some l
  else do
    let l ← l.dropKey
    let start : KeyStart :=
      ⟨l.tokens.length, l.cursor.mark, !l.inFlow && l.columns.head? = some l.column⟩
    return { l with keys := some start :: l.keys.drop 1 }

/-! ## Between tokens -/

/-- Skips blanks, comments and line breaks, and a byte order mark where a line starts. A line break
allows a key to start again, outside flow collections; tabs may not indent where a key may start. -/
def skipSpace (inFlow keyAllowed inComment : Bool) (m : Mark) : List Char → Bool × Cursor
  | '\r' :: '\n' :: rest =>
    skipSpace inFlow (keyAllowed || !inFlow) false ((m.past '\r').newline '\n') rest
  | c :: rest =>
    if isBreak c then skipSpace inFlow (keyAllowed || !inFlow) false (m.newline c) rest
    else if inComment || c = ' ' || (c = '\ufeff' && m.column = 0) ||
        (c = '\t' && (inFlow || !keyAllowed)) then
      skipSpace inFlow keyAllowed inComment (m.past c) rest
    else if c = '#' then skipSpace inFlow keyAllowed true (m.past c) rest
    else (keyAllowed, ⟨m, c :: rest⟩)
  | [] => (keyAllowed, ⟨m, []⟩)

def skip (l : Layout) : Layout :=
  let (keyAllowed, cursor) := skipSpace l.inFlow l.keyAllowed false l.cursor.mark l.cursor.rest
  { l with keyAllowed, cursor }

/-! ## Single tokens -/

def documentMark (l : Layout) (t : Token) : Option Layout := do
  let l ← l.dedentAll.dropKey
  return ({ l with keyAllowed := false }.push t).advance 3

def flowStart (l : Layout) (t : Token) : Option Layout := do
  let l ← l.markKey
  return ({ l with keys := none :: l.keys, keyAllowed := true }.push t).advance 1

def flowEnd (l : Layout) (t : Token) : Option Layout := do
  let l ← l.dropKey
  let keys := if l.inFlow then l.keys.drop 1 else l.keys
  return ({ l with keys, keyAllowed := false }.push t).advance 1

def comma (l : Layout) : Option Layout := do
  let l ← l.dropKey
  return ({ l with keyAllowed := true }.push .comma).advance 1

def dash (l : Layout) : Option Layout := do
  if !l.inFlow && !l.keyAllowed then none
  let l ← (l.indent l.column l.tokens.length .blockSequenceStart).dropKey
  return ({ l with keyAllowed := true }.push .dash).advance 1

/-- A question mark announces a key. -/
def announcedKey (l : Layout) : Option Layout := do
  if !l.inFlow && !l.keyAllowed then none
  let l ← (l.indent l.column l.tokens.length .blockMappingStart).dropKey
  return ({ l with keyAllowed := !l.inFlow }.push .key).advance 1

def colon (l : Layout) : Option Layout :=
  match l.keys.head?.join with
  | some start =>
    let l := (l.insertAt start.index .key).indent start.mark.column start.index .blockMappingStart
    some (({ l with keys := none :: l.keys.drop 1, keyAllowed := false }.push .value).advance 1)
  | none =>
    if !l.inFlow && !l.keyAllowed then none
    else
      let l := l.indent l.column l.tokens.length .blockMappingStart
      some (({ l with keyAllowed := !l.inFlow }.push .value).advance 1)

def quotedScalar (l : Layout) (quote : Char) : Option Layout := do
  let l ← l.markKey
  let (text, cursor) ← quoted quote l.cursor
  return { l with cursor, keyAllowed := false }.push (.scalar .quoted text)

def plainScalar (l : Layout) : Option Layout := do
  let l ← l.markKey
  let indent := (l.columns.head?.map (· + 1)).getD 0
  let (text, broken, cursor) ← plain l.inFlow indent l.cursor
  return { l with cursor, keyAllowed := broken }.push (.scalar .plain text)

/-- The token that starts with `c`, after which `rest` is left. -/
def token (l : Layout) (c : Char) (rest : List Char) : Option Layout :=
  let spaced := atSpace rest
  if l.cursor.atDocumentMark then
    l.documentMark (if c = '-' then .documentStart else .documentEnd)
  else match c with
    | '[' => l.flowStart .flowSequenceStart
    | ']' => l.flowEnd .flowSequenceEnd
    | '\x7b' => l.flowStart .flowMappingStart
    | '\x7d' => l.flowEnd .flowMappingEnd
    | ',' => l.comma
    | '\'' => l.quotedScalar c
    | '"' => l.quotedScalar c
    | '-' => if spaced then l.dash else l.plainScalar
    | '?' => if l.inFlow || spaced then l.announcedKey else l.plainScalar
    | ':' => if l.inFlow || spaced then l.colon else l.plainScalar
    | _ => if "\t#&*!|>%@`".contains c then none else l.plainScalar

/-! ## The whole text -/

def close (l : Layout) : Option (List Token) := do
  let l ← l.dedentAll.dropKey
  return l.tokens.reverse

/-- Reads tokens up to the end of the text. -/
def run (l : Layout) : Nat → Option (List Token)
  | 0 => none
  | fuel + 1 => do
    let l ← l.skip.dropStaleKeys
    let l := l.dedent l.column
    match l.cursor.rest with
    | [] => l.close
    | c :: rest => (← l.token c rest).run fuel

end Layout

/-- The tokens of a text, unless it breaks a rule of layout. -/
def Token.ofString? (text : String) : Option (List Token) :=
  let c := Cursor.ofString text
  if c.rest.all isPrintable then { cursor := c : Layout }.run (c.rest.length + 1) else none

end Realm.Yaml
