import RobotBridge.Json.Number
import RobotBridge.Json.Text

/-! Reading documents: strict JSON, with arrays and objects nested at most 127 deep. -/
namespace RobotBridge.Json

def isBlank (c : Char) : Bool := c == ' ' || c == '\t' || c == '\n' || c == '\r'

def skipBlank (cs : List Char) : List Char := cs.dropWhile isBlank

def literal? (word : String) (value : Json) (cs : List Char) : Option (Json × List Char) :=
  if word.toList.isPrefixOf cs then some (value, cs.drop word.length) else none

def scalar? (cs : List Char) : Option (Json × List Char) :=
  match cs with
  | 'n' :: _ => literal? "null" .null cs
  | 't' :: _ => literal? "true" (.boolean true) cs
  | 'f' :: _ => literal? "false" (.boolean false) cs
  | '"' :: cs => (stringBody? cs).map fun (s, cs) => (.string s, cs)
  | _ => number? cs

def items? (element : List Char → Option (Json × List Char)) :
    Nat → List Char → Option (List Json × List Char)
  | 0, _ => none
  | fuel + 1, cs => do
    let (item, cs) ← element cs
    match skipBlank cs with
    | ',' :: cs =>
      let (rest, cs) ← items? element fuel cs
      return (item :: rest, cs)
    | ']' :: cs => return ([item], cs)
    | _ => none

def key? (cs : List Char) : Option (String × List Char) := do
  match skipBlank cs with
  | '"' :: cs =>
    let (key, cs) ← stringBody? cs
    match skipBlank cs with
    | ':' :: cs => return (key, cs)
    | _ => none
  | _ => none

def members? (element : List Char → Option (Json × List Char)) :
    Nat → List Char → Option (List (String × Json) × List Char)
  | 0, _ => none
  | fuel + 1, cs => do
    let (key, cs) ← key? cs
    let (value, cs) ← element cs
    match skipBlank cs with
    | ',' :: cs =>
      let (rest, cs) ← members? element fuel cs
      return ((key, value) :: rest, cs)
    | '\x7d' :: cs => return ([(key, value)], cs)
    | _ => none

/-- A value at the front that nests at most `depth` arrays and objects, after blanks. -/
def value? (depth : Nat) (cs : List Char) : Option (Json × List Char) :=
  match depth, skipBlank cs with
  | 0, '[' :: _ => none
  | 0, '\x7b' :: _ => none
  | depth + 1, '[' :: cs =>
    match skipBlank cs with
    | ']' :: cs => some (.array [], cs)
    | _ => (items? (value? depth) cs.length cs).map fun (items, cs) => (.array items, cs)
  | depth + 1, '\x7b' :: cs =>
    match skipBlank cs with
    | '\x7d' :: cs => some (.object [], cs)
    | _ => (members? (value? depth) cs.length cs).map fun (members, cs) => (ofMembers members, cs)
  | _, cs => scalar? cs

def depthLimit : Nat := 127

def parse? (text : String) : Option Json := do
  let (value, rest) ← value? depthLimit text.toList
  guard (skipBlank rest).isEmpty
  return value

end RobotBridge.Json
