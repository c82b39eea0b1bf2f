import MapDocument.Json.Basic
import MapDocument.FloatingPoint.Layout
/-!
# JSON — written values

Two written forms: `compact`, without any space, and `pretty`, one item a
line, two spaces a level.
-/

namespace MapDocument

/-- Numbers with a fraction or an exponent: sixteen places before the point,
five after it, and always a fraction. -/
def JsonNumber.layout : FloatLayout where
  least := some (-5)
  greatest := some 15
  marksWhole := true
  marksPositive := true
  tie := .even

/-- The written form of a number. -/
def JsonNumber.text : JsonNumber → String
  | integer n => toString n
  | real x => layout.text x

namespace Json

/-- A character as it stands inside a string. -/
def escapeChar (c : Char) : List Char :=
  if c = '"' then ['\\', '"']
  else if c = '\\' then ['\\', '\\']
  else if c = '\n' then ['\\', 'n']
  else if c = '\r' then ['\\', 'r']
  else if c = '\t' then ['\\', 't']
  else if c.toNat = 8 then ['\\', 'b']
  else if c.toNat = 12 then ['\\', 'f']
  else if c.toNat < 32 then
    '\\' :: 'u' :: '0' :: '0' :: Nat.digitChar (c.toNat / 16) :: [Nat.digitChar (c.toNat % 16)]
  else [c]

/-- A string between its quotes. -/
def quote (s : String) : String := String.ofList ('"' :: s.toList.flatMap escapeChar ++ ['"'])

mutual
/-- The written form without any space. -/
def compact : Json → String
  | null => "null"
  | bool b => if b then "true" else "false"
  | number n => n.text
  | string s => quote s
  | array items => "[" ++ ",".intercalate (compactItems items) ++ "]"
  | object members => "\x7b" ++ ",".intercalate (compactMembers members) ++ "\x7d"

/-- The written forms of items. -/
def compactItems : List Json → List String
  | [] => []
  | item :: rest => compact item :: compactItems rest

/-- The written forms of members. -/
def compactMembers : List (String × Json) → List String
  | [] => []
  | (key, value) :: rest => (quote key ++ ":" ++ compact value) :: compactMembers rest
end

/-- Start of a line at the given depth. -/
def lineStart (depth : Nat) : String := "\n" ++ String.ofList (List.replicate (2 * depth) ' ')

/-- Parts between brackets, each on a line of its own. -/
def bracket (depth : Nat) (opening closing : String) (parts : List String) : String :=
  if parts.isEmpty then opening ++ closing
  else
    opening ++ ",".intercalate (parts.map (lineStart (depth + 1) ++ ·)) ++ lineStart depth ++
      closing

mutual
/-- The written form with one item a line, inside `depth` brackets. -/
def prettyAt (depth : Nat) : Json → String
  | array items => bracket depth "[" "]" (prettyItems (depth + 1) items)
  | object members => bracket depth "\x7b" "\x7d" (prettyMembers (depth + 1) members)
  | null => "null"
  | bool b => if b then "true" else "false"
  | number n => n.text
  | string s => quote s

/-- The written forms of items inside `depth` brackets. -/
def prettyItems (depth : Nat) : List Json → List String
  | [] => []
  | item :: rest => prettyAt depth item :: prettyItems depth rest

/-- The written forms of members inside `depth` brackets. -/
def prettyMembers (depth : Nat) : List (String × Json) → List String
  | [] => []
  | (key, value) :: rest =>
    (quote key ++ ": " ++ prettyAt depth value) :: prettyMembers depth rest
end

/-- The written form with one item a line. -/
def pretty (j : Json) : String := prettyAt 0 j

end Json

end MapDocument
