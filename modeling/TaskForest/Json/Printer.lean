import TaskForest.Json.Numeral
import TaskForest.Json.Quoted

/-!
The two written forms of a value: compact, without any blank, and pretty, with one field or item a line
and two blanks a level. An empty array or object is written `[]` or `{}` in both.
-/

namespace TaskForest
namespace Json

def boolText (b : Bool) : List Char :=
  if b then "true".toList else "false".toList

mutual

def compactText : Json → List Char
  | null => "null".toList
  | bool b => boolText b
  | number n => n.text
  | string s => quote s
  | array items => '[' :: compactItems items ++ [']']
  | object fields => '{' :: compactFields fields ++ ['}']

def compactItems : List Json → List Char
  | [] => []
  | [item] => item.compactText
  | item :: rest => item.compactText ++ ',' :: compactItems rest

def compactFields : List (String × Json) → List Char
  | [] => []
  | [(key, value)] => quote key ++ ':' :: value.compactText
  | (key, value) :: rest => quote key ++ ':' :: value.compactText ++ ',' :: compactFields rest

end

def lineStart (level : Nat) : List Char :=
  '\n' :: List.replicate (2 * level) ' '

mutual

def prettyText (level : Nat) : Json → List Char
  | null => "null".toList
  | bool b => boolText b
  | number n => n.text
  | string s => quote s
  | array [] => ['[', ']']
  | array (item :: rest) =>
    '[' :: prettyItems (level + 1) (item :: rest) ++ lineStart level ++ [']']
  | object [] => ['{', '}']
  | object (field :: rest) =>
    '{' :: prettyFields (level + 1) (field :: rest) ++ lineStart level ++ ['}']

def prettyItems (level : Nat) : List Json → List Char
  | [] => []
  | [item] => lineStart level ++ item.prettyText level
  | item :: rest => lineStart level ++ item.prettyText level ++ ',' :: prettyItems level rest

def prettyFields (level : Nat) : List (String × Json) → List Char
  | [] => []
  | [(key, value)] => lineStart level ++ quote key ++ ':' :: ' ' :: value.prettyText level
  | (key, value) :: rest =>
    lineStart level ++ quote key ++ ':' :: ' ' :: value.prettyText level
      ++ ',' :: prettyFields level rest

end

def compact (value : Json) : String :=
  String.ofList value.compactText

def pretty (value : Json) : String :=
  String.ofList (value.prettyText 0)

end Json
end TaskForest
