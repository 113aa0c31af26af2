/-! Strings and blanks in configuration files. -/
namespace RobotBridge.Toml

def isBlank (c : Char) : Bool := c == ' ' || c == '\t'

def skipBlank (cs : List Char) : List Char := cs.dropWhile isBlank

/-- A character that may stand for itself in a string or a comment. -/
def isPlain (c : Char) : Bool := c == '\t' || 0x20 ≤ c.toNat && c.toNat != 0x7F

def newline? : List Char → Option (List Char)
  | '\n' :: cs => some cs
  | '\r' :: '\n' :: cs => some cs
  | _ => none

def skipComment : List Char → List Char
  | '#' :: cs => cs.dropWhile isPlain
  | cs => cs

def skipLines : Nat → List Char → List Char
  | 0, cs => cs
  | fuel + 1, cs =>
    let cs := skipComment (skipBlank cs)
    match newline? cs with
    | some cs => skipLines fuel cs
    | none => cs

def lineEnd? (cs : List Char) : Option (List Char) :=
  match skipComment (skipBlank cs) with
  | [] => some []
  | cs => newline? cs

def hexDigit? (c : Char) : Option Nat :=
  if c.isDigit then some (c.toNat - '0'.toNat)
  else if 'a' ≤ c ∧ c ≤ 'f' then some (c.toNat - 'a'.toNat + 10)
  else if 'A' ≤ c ∧ c ≤ 'F' then some (c.toNat - 'A'.toNat + 10)
  else none

def codePoint? (count : Nat) (cs : List Char) : Option (Char × List Char) := do
  let digits ← (cs.take count).mapM hexDigit?
  guard (digits.length = count)
  let code := digits.foldl (fun n d => n * 16 + d) 0
  guard (code.isValidChar)
  return (Char.ofNat code, cs.drop count)

def escape? : List Char → Option (Char × List Char)
  | 'b' :: cs => some ('\x08', cs)
  | 't' :: cs => some ('\t', cs)
  | 'n' :: cs => some ('\n', cs)
  | 'f' :: cs => some ('\x0c', cs)
  | 'r' :: cs => some ('\r', cs)
  | '"' :: cs => some ('"', cs)
  | '\\' :: cs => some ('\\', cs)
  | 'u' :: cs => codePoint? 4 cs
  | 'U' :: cs => codePoint? 8 cs
  | _ => none

def basic? : Nat → List Char → Option (List Char × List Char)
  | 0, _ => none
  | fuel + 1, cs =>
    match cs with
    | [] => none
    | '"' :: cs => some ([], cs)
    | '\\' :: cs => do
      let (c, cs) ← escape? cs
      let (s, cs) ← basic? fuel cs
      return (c :: s, cs)
    | c :: cs => do
      guard (isPlain c)
      let (s, cs) ← basic? fuel cs
      return (c :: s, cs)

def literal? (cs : List Char) : Option (List Char × List Char) :=
  match cs.span fun c => c != '\'' && isPlain c with
  | (s, '\'' :: cs) => some (s, cs)
  | _ => none

/-- The closing delimiter of a string over several lines: three quotes, and up to two before them
that belong to the string. -/
def closing? (quote : Char) (cs : List Char) : Option (List Char × List Char) :=
  let run := (cs.takeWhile (· == quote)).length
  if 3 ≤ run then
    let inside := min run 5 - 3
    some (List.replicate inside quote, cs.drop (inside + 3))
  else none

def skipBlankLines : List Char → List Char
  | ' ' :: cs => skipBlankLines cs
  | '\t' :: cs => skipBlankLines cs
  | '\n' :: cs => skipBlankLines cs
  | '\r' :: '\n' :: cs => skipBlankLines cs
  | cs => cs

/-- What follows a backslash at the end of a line: the rest of the line is blank, and the blanks and
line ends after it are left out. A carriage return alone ends no line. -/
def skipBreak (cs : List Char) : Option (List Char) := do
  let cs ← newline? (skipBlank cs)
  return skipBlankLines cs

def multiline? (quote : Char) (escapes : Bool) : Nat → List Char → Option (List Char × List Char)
  | 0, _ => none
  | fuel + 1, cs =>
    match closing? quote cs with
    | some parts => some parts
    | none =>
      match newline? cs with
      | some cs => do
        let (s, cs) ← multiline? quote escapes fuel cs
        return ('\n' :: s, cs)
      | none =>
        match cs with
        | [] => none
        | c :: cs =>
          if escapes && c == '\\' then
            match skipBreak cs with
            | some cs => multiline? quote escapes fuel cs
            | none => do
              let (c, cs) ← escape? cs
              let (s, cs) ← multiline? quote escapes fuel cs
              return (c :: s, cs)
          else do
            guard (isPlain c)
            let (s, cs) ← multiline? quote escapes fuel cs
            return (c :: s, cs)

/-- The body of a string over several lines; a line end right after the opening is left out. -/
def afterOpening (cs : List Char) : List Char := (newline? cs).getD cs

def string? (cs : List Char) : Option (String × List Char) :=
  let found := match cs with
    | '"' :: '"' :: '"' :: cs => multiline? '"' true (cs.length + 1) (afterOpening cs)
    | '\'' :: '\'' :: '\'' :: cs => multiline? '\'' false (cs.length + 1) (afterOpening cs)
    | '"' :: cs => basic? (cs.length + 1) cs
    | '\'' :: cs => literal? cs
    | _ => none
  found.map fun (s, cs) => (String.ofList s, cs)

def isBare (c : Char) : Bool := c.isAlphanum || c == '_' || c == '-'

def keyPart? (cs : List Char) : Option (String × List Char) :=
  match cs with
  | '"' :: cs => (basic? (cs.length + 1) cs).map fun (s, cs) => (String.ofList s, cs)
  | '\'' :: cs => (literal? cs).map fun (s, cs) => (String.ofList s, cs)
  | cs =>
    match cs.span isBare with
    | ([], _) => none
    | (s, cs) => some (String.ofList s, cs)

def keyParts? : Nat → List Char → Option (List String × List Char)
  | 0, _ => none
  | fuel + 1, cs => do
    let (part, cs) ← keyPart? (skipBlank cs)
    match skipBlank cs with
    | '.' :: cs =>
      let (rest, cs) ← keyParts? fuel cs
      return (part :: rest, cs)
    | cs => return ([part], cs)

/-- Keys have fewer parts than this, and values nest less deeply. -/
def depthLimit : Nat := 80

def key? (cs : List Char) : Option (List String × List Char) := do
  let (parts, cs) ← keyParts? (cs.length + 1) cs
  guard (parts.length < depthLimit)
  return (parts, cs)

end RobotBridge.Toml
