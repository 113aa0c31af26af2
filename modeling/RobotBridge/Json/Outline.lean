import RobotBridge.Json.Text

/-! Documents as they are written: leaves with their final text, in the order of writing. -/
namespace RobotBridge.Json

inductive Outline where
  | leaf (text : List Char)
  | array (items : List Outline)
  | object (members : List (String × Outline))
deriving Inhabited

namespace Outline

mutual

def compact : Outline → List Char
  | leaf text => text
  | array items => '[' :: compactItems items
  | object members => '\x7b' :: compactMembers members

def compactItems : List Outline → List Char
  | [] => [']']
  | [item] => compact item ++ [']']
  | item :: rest => compact item ++ ',' :: compactItems rest

def compactMembers : List (String × Outline) → List Char
  | [] => ['\x7d']
  | [(key, value)] => renderString key ++ ':' :: compact value ++ ['\x7d']
  | (key, value) :: rest => renderString key ++ ':' :: compact value ++ ',' :: compactMembers rest

end

def newline (level : Nat) : List Char := '\n' :: List.replicate (2 * level) ' '

mutual

def pretty (level : Nat) : Outline → List Char
  | leaf text => text
  | array [] => ['[', ']']
  | array (item :: rest) => '[' :: newline (level + 1) ++ pretty (level + 1) item ++ prettyItems level rest
  | object [] => ['\x7b', '\x7d']
  | object ((key, value) :: rest) =>
    '\x7b' :: newline (level + 1) ++ renderString key ++ ':' :: ' ' :: pretty (level + 1) value ++
      prettyMembers level rest

def prettyItems (level : Nat) : List Outline → List Char
  | [] => newline level ++ [']']
  | item :: rest => ',' :: newline (level + 1) ++ pretty (level + 1) item ++ prettyItems level rest

def prettyMembers (level : Nat) : List (String × Outline) → List Char
  | [] => newline level ++ ['\x7d']
  | (key, value) :: rest =>
    ',' :: newline (level + 1) ++ renderString key ++ ':' :: ' ' :: pretty (level + 1) value ++
      prettyMembers level rest

end

end Outline

end RobotBridge.Json
