import PatternBook.Json.Basic
import PatternBook.Number.Layout
import PatternBook.Text.Quoted

/-!
# JSON texts

A value is written on one line, or with each item on a line of its own, indented by its depth.
Characters above the control codes stand for themselves, apart from the quotation mark and the
backslash.
-/

namespace PatternBook.Json

def escapeChar (c : Char) : Text :=
  if c = '"' || c = '\\' then ['\\', c]
  else if c = '\n' then ['\\', 'n']
  else if c = '\r' then ['\\', 'r']
  else if c = '\t' then ['\\', 't']
  else if c.toNat = 8 then ['\\', 'b']
  else if c.toNat = 12 then ['\\', 'f']
  else if c.toNat < 0x20 then ['\\', 'u'] ++ Text.hex 4 c.toNat
  else [c]

def renderText (s : Text) : Text := ['"'] ++ s.flatMap escapeChar ++ ['"']

/-- The texts of the numbers that are no decimals. -/
def renderFloat : Binary64 → Text
  | .nan => ['N', 'a', 'N']
  | .infinite negative =>
    (if negative then ['-'] else []) ++ ['I', 'n', 'f', 'i', 'n', 'i', 't', 'y']
  | x => x.toText

/-- The line break and indentation before an item at a depth. -/
def lineBreak (indent : Option Nat) (depth : Nat) : Text :=
  match indent with
  | none => []
  | some width => '\n' :: List.replicate (width * depth) ' '

def separator (indent : Option Nat) (depth : Nat) : Text :=
  match indent with
  | none => [',', ' ']
  | some _ => ',' :: lineBreak indent depth

/-- Brackets around written items, which stand one level deeper. -/
def enclose (indent : Option Nat) (depth : Nat) (left right : Char) (items : List Text) : Text :=
  if items.isEmpty then [left, right]
  else
    left :: lineBreak indent (depth + 1) ++ Text.join (separator indent (depth + 1)) items
      ++ lineBreak indent depth ++ [right]

mutual

def renderAt (indent : Option Nat) (depth : Nat) : Json → Text
  | null => ['n', 'u', 'l', 'l']
  | bool true => ['t', 'r', 'u', 'e']
  | bool false => ['f', 'a', 'l', 's', 'e']
  | int n => Text.ofInt n
  | float x => renderFloat x
  | text s => renderText s
  | array items => enclose indent depth '[' ']' (renderItems indent (depth + 1) items)
  | object members => enclose indent depth '{' '}' (renderMembers indent (depth + 1) members)

def renderItems (indent : Option Nat) (depth : Nat) : List Json → List Text
  | [] => []
  | item :: items => renderAt indent depth item :: renderItems indent depth items

def renderMembers (indent : Option Nat) (depth : Nat) : List (Text × Json) → List Text
  | [] => []
  | (key, value) :: members =>
    (renderText key ++ [':', ' '] ++ renderAt indent depth value)
      :: renderMembers indent depth members

end

def render (indent : Option Nat) (value : Json) : Text := renderAt indent 0 value

end PatternBook.Json
