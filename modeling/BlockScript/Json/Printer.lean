import BlockScript.Json.Basic
import BlockScript.Number.Layout

/-!
JSON text.

`compact` puts no blank anywhere; `pretty` indents by two spaces and leaves empty containers
closed up.  Reals always show a fraction or an exponent.
-/

namespace BlockScript.Json

/-- Reals are positional from `0.00001` up to `10 ^ 16`, a positive exponent shows its sign, and
of two equally near decimals the even one is written. -/
def realLayout : Layout where
  positionalFrom := -5
  positionalBelow := 16
  plus := "+"
  tie := .even

def Number.render : Number → String
  | natural n => toString n.toNat
  | negative n _ => toString n.toInt
  | real x _ => realLayout.write x

def escapeChar (c : Char) : List Char :=
  if c = '"' then ['\\', '"']
  else if c = '\\' then ['\\', '\\']
  else if 0x20 ≤ c.toNat then [c]
  else match c.toNat with
    | 0x8 => ['\\', 'b']
    | 0x9 => ['\\', 't']
    | 0xa => ['\\', 'n']
    | 0xc => ['\\', 'f']
    | 0xd => ['\\', 'r']
    | n => ['\\', 'u', '0', '0', Nat.digitChar (n / 16), Nat.digitChar (n % 16)]

def renderString (s : String) : List Char :=
  '"' :: s.toList.flatMap escapeChar ++ ['"']

mutual

def render : Json → List Char
  | null => "null".toList
  | bool b => (if b then "true" else "false").toList
  | number n => n.render.toList
  | string s => renderString s
  | array items => '[' :: renderItems items ++ [']']
  | object fields => '\x7b' :: renderFields fields ++ ['\x7d']

def renderItems : List Json → List Char
  | [] => []
  | [item] => render item
  | item :: rest => render item ++ ',' :: renderItems rest

def renderFields : List (String × Json) → List Char
  | [] => []
  | [(key, value)] => renderString key ++ ':' :: render value
  | (key, value) :: rest => renderString key ++ ':' :: render value ++ ',' :: renderFields rest

end

def compact (json : Json) : String := String.ofList json.render

def newLine (depth : Nat) : List Char := '\n' :: List.replicate (2 * depth) ' '

mutual

def renderPretty (depth : Nat) : Json → List Char
  | null => "null".toList
  | bool b => (if b then "true" else "false").toList
  | number n => n.render.toList
  | string s => renderString s
  | array [] => ['[', ']']
  | array items => '[' :: prettyItems depth items ++ newLine depth ++ [']']
  | object [] => ['\x7b', '\x7d']
  | object fields => '\x7b' :: prettyFields depth fields ++ newLine depth ++ ['\x7d']

def prettyItems (depth : Nat) : List Json → List Char
  | [] => []
  | [item] => newLine (depth + 1) ++ renderPretty (depth + 1) item
  | item :: rest =>
    newLine (depth + 1) ++ renderPretty (depth + 1) item ++ ',' :: prettyItems depth rest

def prettyFields (depth : Nat) : List (String × Json) → List Char
  | [] => []
  | [(key, value)] =>
    newLine (depth + 1) ++ renderString key ++ ':' :: ' ' :: renderPretty (depth + 1) value
  | (key, value) :: rest =>
    newLine (depth + 1) ++ renderString key ++ ':' :: ' ' :: renderPretty (depth + 1) value ++
      ',' :: prettyFields depth rest

end

def pretty (json : Json) : String := String.ofList (json.renderPretty 0)

end BlockScript.Json
