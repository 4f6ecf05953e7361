import Realm.Yaml.Token

/-! # Nodes of a YAML document -/

namespace Realm.Yaml

inductive Node where
  | scalar (style : Style) (text : String)
  | sequence (items : List Node)
  | mapping (entries : List (Node × Node))
  deriving Repr

namespace Node

/-- What stands where nothing is written. -/
def empty : Node := .scalar .plain ""

/-- Where a node may stand: anywhere, as the value of a block mapping (a block sequence there need
not be indented), or inside a flow collection. -/
inductive Place where
  | block
  | blockValue
  | flow
  deriving DecidableEq, Repr

/-- What is left after the comma between two items of a flow collection; none stands before the
first item. -/
def afterComma? (first : Bool) (ts : List Token) : Option (List Token) :=
  if first then some ts
  else match ts with
    | .comma :: rest => some rest
    | _ => none

mutual

/-- One node. -/
def read (place : Place) (ts : List Token) : Nat → Option (Node × List Token)
  | 0 => none
  | fuel + 1 =>
    match ts with
    | .scalar style text :: rest => some (.scalar style text, rest)
    | .flowSequenceStart :: rest => (readFlowItems true rest fuel).map fun (items, rest) =>
      (.sequence items, rest)
    | .flowMappingStart :: rest => (readFlowEntries true rest fuel).map fun (entries, rest) =>
      (.mapping entries, rest)
    | .dash :: _ =>
      if place = .blockValue then
        (readDashes true ts fuel).map fun (items, rest) => (.sequence items, rest)
      else none
    | .blockSequenceStart :: rest =>
      if place = .flow then none
      else (readDashes false rest fuel).map fun (items, rest) => (.sequence items, rest)
    | .blockMappingStart :: rest =>
      if place = .flow then none
      else (readEntries rest fuel).map fun (entries, rest) => (.mapping entries, rest)
    | _ => none

/-- A node, unless one of `stops` stands in its place. -/
def readUnless (stops : List Token) (place : Place) (ts : List Token) : Nat → Option (Node × List Token)
  | 0 => none
  | fuel + 1 =>
    if ts.head?.any stops.contains then some (empty, ts) else read place ts fuel

/-- The items of a block sequence; one that is not indented ends without a token of its own. -/
def readDashes (unindented : Bool) (ts : List Token) : Nat → Option (List Node × List Token)
  | 0 => none
  | fuel + 1 =>
    match ts with
    | .dash :: rest => do
      let stops : List Token :=
        if unindented then [.dash, .key, .value, .blockEnd] else [.dash, .blockEnd]
      let (item, rest) ← readUnless stops .block rest fuel
      let (items, rest) ← readDashes unindented rest fuel
      return (item :: items, rest)
    | _ =>
      if unindented then some ([], ts)
      else match ts with
        | .blockEnd :: rest => some ([], rest)
        | _ => none

/-- The entries of a block mapping. -/
def readEntries (ts : List Token) : Nat → Option (List (Node × Node) × List Token)
  | 0 => none
  | fuel + 1 =>
    match ts with
    | .blockEnd :: rest => some ([], rest)
    | .key :: rest => do
      let (key, rest) ← readUnless [.key, .value, .blockEnd] .blockValue rest fuel
      let (value, rest) ← readValue [.key, .value, .blockEnd] .blockValue rest fuel
      let (entries, rest) ← readEntries rest fuel
      return ((key, value) :: entries, rest)
    | _ => none

/-- The value of an entry, if there is one. -/
def readValue (stops : List Token) (place : Place) (ts : List Token) : Nat → Option (Node × List Token)
  | 0 => none
  | fuel + 1 =>
    match ts with
    | .value :: rest => readUnless stops place rest fuel
    | _ => some (empty, ts)

/-- The key that a question mark announces in a flow sequence. Where it is left out, the token that
stands in its place is left out with it. -/
def readAnnounced (ts : List Token) : Nat → Option (Node × List Token)
  | 0 => none
  | fuel + 1 =>
    match ts with
    | .value :: rest | .comma :: rest | .flowSequenceEnd :: rest => some (empty, rest)
    | _ => read .flow ts fuel

/-- The items of a flow sequence. A key among them makes a mapping of one entry. -/
def readFlowItems (first : Bool) (ts : List Token) : Nat → Option (List Node × List Token)
  | 0 => none
  | fuel + 1 =>
    match ts with
    | .flowSequenceEnd :: rest => some ([], rest)
    | _ => do
      match ← afterComma? first ts with
      | .flowSequenceEnd :: rest => return ([], rest)
      | .key :: rest =>
        let (key, rest) ← readAnnounced rest fuel
        let (value, rest) ← readValue [.comma, .flowSequenceEnd] .flow rest fuel
        let (items, rest) ← readFlowItems false rest fuel
        return (.mapping [(key, value)] :: items, rest)
      | ts =>
        let (item, rest) ← read .flow ts fuel
        let (items, rest) ← readFlowItems false rest fuel
        return (item :: items, rest)

/-- The entries of a flow mapping. A node that is no key has the empty value. -/
def readFlowEntries (first : Bool) (ts : List Token) : Nat → Option (List (Node × Node) × List Token)
  | 0 => none
  | fuel + 1 =>
    match ts with
    | .flowMappingEnd :: rest => some ([], rest)
    | _ => do
      match ← afterComma? first ts with
      | .flowMappingEnd :: rest => return ([], rest)
      | .key :: rest =>
        let (key, rest) ← readUnless [.value, .comma, .flowMappingEnd] .flow rest fuel
        let (value, rest) ← readValue [.comma, .flowMappingEnd] .flow rest fuel
        let (entries, rest) ← readFlowEntries false rest fuel
        return ((key, value) :: entries, rest)
      | ts =>
        let (key, rest) ← read .flow ts fuel
        let (entries, rest) ← readFlowEntries false rest fuel
        return ((key, empty) :: entries, rest)

end

/-- The only document of a text. A text without content is an empty node. -/
def ofTokens? (ts : List Token) : Option Node := do
  let fuel := 4 * ts.length + 4
  let (node, rest) ← match ts with
    | [] => some (empty, [])
    | [.documentStart] => some (empty, [])
    | .documentStart :: content => readUnless [.documentEnd] .block content fuel
    | _ => read .block ts fuel
  if rest.all (· = .documentEnd) then some node else none

def ofString? (text : String) : Option Node := (Token.ofString? text).bind ofTokens?

end Node
end Realm.Yaml
