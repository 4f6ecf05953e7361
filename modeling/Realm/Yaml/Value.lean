import Realm.Binary.Reading
import Realm.Yaml.Node

/-! # Typed values of nodes

Only plain scalars are truth values or numbers. -/

namespace Realm.Yaml.Node

def plainText? : Node → Option String
  | .scalar .plain text => some text
  | _ => none

def text? : Node → Option String
  | .scalar _ text => some text
  | _ => none

/-- Whether a node stands for a missing value. -/
def isNull (n : Node) : Bool :=
  match n.plainText? with
  | some text => ["", "~", "null", "Null", "NULL"].contains text
  | none => false

/-- The value of a node that may be missing. -/
def optional? {α : Type} (read : Node → Option α) (n : Node) : Option (Option α) :=
  if n.isNull then some none else (read n).map some

def bool? (n : Node) : Option Bool := do
  let text ← n.plainText?
  if ["true", "True", "TRUE"].contains text then some true
  else if ["false", "False", "FALSE"].contains text then some false
  else none

/-- The number written by digits of a base up to sixteen. -/
def natOfDigits? (base : Nat) (cs : List Char) : Option Nat := do
  if cs.isEmpty then none
  let values ← cs.mapM hexDigit?
  if values.all (· < base) then some (values.foldl (base * · + ·) 0) else none

/-- A natural number after an optional plus sign: decimal, or with a mark for its base. A decimal
number of several digits does not start with 0. -/
def nat? (n : Node) : Option Nat := do
  let text ← n.plainText?
  let cs := if text.toList.head? = some '+' then text.toList.drop 1 else text.toList
  match cs with
  | '0' :: 'x' :: rest => natOfDigits? 16 rest
  | '0' :: 'o' :: rest => natOfDigits? 8 rest
  | '0' :: 'b' :: rest => natOfDigits? 2 rest
  | '0' :: _ :: _ => none
  | _ => natOfDigits? 10 cs

/-- A natural number of at most `bits` bits. -/
def word? (bits : Nat) (n : Node) : Option Nat :=
  n.nat?.bind fun k => if k < twoPow bits then some k else none

/-- A number in double precision. Infinity and what is not a number have names of their own. -/
def double? (n : Node) : Option Double := do
  let text ← n.plainText?
  if [".inf", ".Inf", ".INF", "+.inf", "+.Inf", "+.INF"].contains text then some (.infinite false)
  else if ["-.inf", "-.Inf", "-.INF"].contains text then some (.infinite true)
  else if [".nan", ".NaN", ".NAN"].contains text then some .nan
  else
    let x ← Binary.ofText? .double text
    if x.isFinite then some x else none

/-- The items of a sequence; an empty node has none. -/
def items? : Node → Option (List Node)
  | .sequence items => some items
  | .scalar .plain "" => some []
  | _ => none

/-- The entries of a mapping with scalar keys; an empty node has none. -/
def entries? : Node → Option (List (String × Node))
  | .mapping entries => entries.mapM fun (key, value) => key.text?.map fun text => (text, value)
  | .scalar .plain "" => some []
  | _ => none

/-- The value under `name`, read by `read`, or `default` if there is none. Two values under one name
are refused. -/
def field? {α : Type} (entries : List (String × Node)) (name : String) (default : α)
    (read : Node → Option α) : Option α :=
  match entries.filter fun e => e.1 = name with
  | [] => some default
  | [(_, value)] => read value
  | _ => none

end Realm.Yaml.Node
