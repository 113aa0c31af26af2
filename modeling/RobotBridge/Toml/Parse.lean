import RobotBridge.Toml.Scalar

/-! Reading configuration files, TOML 1.0. -/
namespace RobotBridge.Toml

def items? (element : List Char → Option (Toml × List Char)) :
    Nat → List Char → Option (List Toml × List Char)
  | 0, _ => none
  | fuel + 1, cs =>
    match skipLines cs.length cs with
    | ']' :: cs => some ([], cs)
    | cs => do
      let (item, cs) ← element cs
      match skipLines cs.length cs with
      | ',' :: cs =>
        let (rest, cs) ← items? element fuel cs
        return (item :: rest, cs)
      | ']' :: cs => return ([item], cs)
      | _ => none

def assignment? (element : List Char → Option (Toml × List Char)) (cs : List Char) :
    Option (List String × Toml × List Char) := do
  let (key, cs) ← key? cs
  let cs ← char? '=' cs
  let (value, cs) ← element (skipBlank cs)
  return (key, value, cs)

def assignments? (element : List Char → Option (Toml × List Char)) :
    Nat → Entries → List Char → Option (Entries × List Char)
  | 0, _, _ => none
  | fuel + 1, entries, cs => do
    let (key, value, cs) ← assignment? element cs
    let entries ← insert value key entries
    match skipBlank cs with
    | ',' :: cs => assignments? element fuel entries cs
    | '\x7d' :: cs => return (entries, cs)
    | _ => none

def value? (depth : Nat) (cs : List Char) : Option (Toml × List Char) :=
  match depth, cs with
  | 0, '[' :: _ => none
  | 0, '\x7b' :: _ => none
  | depth + 1, '[' :: cs =>
    (items? (value? depth) (cs.length + 1) cs).map fun (items, cs) => (.array items, cs)
  | depth + 1, '\x7b' :: cs =>
    match skipBlank cs with
    | '\x7d' :: cs => some (.table .inline [], cs)
    | cs =>
      (assignments? (value? depth) (cs.length + 1) [] cs).map fun (entries, cs) =>
        (.table .inline entries, cs)
  | _, cs => scalar? cs

structure Progress where
  entries : Entries := []
  header : List String := []

def line? (p : Progress) (cs : List Char) : Option (Progress × List Char) :=
  match cs with
  | '[' :: '[' :: cs => do
    let (header, cs) ← key? cs
    let cs ← (char? ']' cs).bind (char? ']')
    return ({ entries := ← openNext header p.entries, header }, ← lineEnd? cs)
  | '[' :: cs => do
    let (header, cs) ← key? cs
    let cs ← char? ']' cs
    return ({ entries := ← openTable header p.entries, header }, ← lineEnd? cs)
  | cs => do
    let (key, value, cs) ← assignment? (value? (depthLimit - 1)) cs
    return ({ p with entries := ← insertUnder p.header key value p.entries }, ← lineEnd? cs)

def lines? : Nat → Progress → List Char → Option Entries
  | 0, _, _ => none
  | fuel + 1, p, cs =>
    match skipLines cs.length cs with
    | [] => some p.entries
    | cs => do
      let (p, cs) ← line? p cs
      lines? fuel p cs

/-- The entries of a whole file; a byte order mark at its start is left out. -/
def parse? (text : String) : Option Entries :=
  let cs := match text.toList with
    | '\uFEFF' :: cs => cs
    | cs => cs
  lines? (cs.length + 1) {} cs

end RobotBridge.Toml
