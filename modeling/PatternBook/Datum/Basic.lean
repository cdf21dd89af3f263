import PatternBook.Json.Basic
import PatternBook.Number.Layout
import PatternBook.Text.Quoted

/-!
# Data

The values that a settings file can hold. Keys of a mapping may be any scalar, and two keys are the
same if they are equal as numbers: a truth value counts as zero or one. A value with too long a
number in it has no written form.
-/

namespace PatternBook

inductive Scalar where
  | null
  | bool (b : Bool)
  | int (n : Int)
  | float (x : Binary64)
  | text (s : Text)
deriving DecidableEq

inductive Datum where
  | scalar (value : Scalar)
  | list (items : List Datum)
  | mapping (entries : List (Scalar × Datum))

/-- The whole number that a binary number is equal to. -/
def Binary64.whole? : Binary64 → Option Int
  | finite negative mantissa exponent =>
    let size? :=
      if 0 ≤ exponent then some (mantissa * Nat.pow 2 exponent.toNat)
      else
        let den := Nat.pow 2 (-exponent).toNat
        if mantissa % den = 0 then some (mantissa / den) else none
    size?.map fun size => if negative then -(size : Int) else size
  | _ => none

def Text.ofBool (b : Bool) : Text := if b then "True".toList else "False".toList

namespace Scalar

/-- What a key is compared by. -/
def key : Scalar → Scalar
  | bool b => int (if b then 1 else 0)
  | float x => (x.whole?.map int).getD (float x)
  | s => s

def kindName : Scalar → String
  | null => "NoneType"
  | bool _ => "bool"
  | int _ => "int"
  | float _ => "float"
  | text _ => "str"

/-- The text of a value inside another; texts are quoted. -/
def quoted? : Scalar → Option Text
  | null => some "None".toList
  | bool b => some (Text.ofBool b)
  | int n => Text.ofInt? n
  | float x => some x.toText
  | text s => some (Text.quoted s)

end Scalar

namespace Datum

def null : Datum := scalar .null

def text (s : Text) : Datum := scalar (.text s)

/-- Gives a value to a key: in its old place if there is an equal key, else at the end. -/
def insertKey (k : Scalar) (v : Datum) : List (Scalar × Datum) → List (Scalar × Datum)
  | [] => [(k, v)]
  | (k', v') :: m => if k'.key = k.key then (k', v) :: m else (k', v') :: insertKey k v m

def ofEntries (entries : List (Scalar × Datum)) : Datum :=
  mapping (entries.foldl (fun m e => insertKey e.1 e.2 m) [])

def lookup? (name : Text) (entries : List (Scalar × Datum)) : Option Datum :=
  (entries.find? fun e => e.1 = .text name).map Prod.snd

/-! ## Written form -/

mutual

def quoted? : Datum → Option Text
  | scalar value => value.quoted?
  | list items => do
    let written ← quotedItems? items
    return ['['] ++ Text.join [',', ' '] written ++ [']']
  | mapping entries => do
    let written ← quotedEntries? entries
    return ['{'] ++ Text.join [',', ' '] written ++ ['}']

def quotedItems? : List Datum → Option (List Text)
  | [] => some []
  | item :: items => do
    let written ← quoted? item
    let rest ← quotedItems? items
    return written :: rest

def quotedEntries? : List (Scalar × Datum) → Option (List Text)
  | [] => some []
  | (key, value) :: entries => do
    let name ← key.quoted?
    let written ← quoted? value
    let rest ← quotedEntries? entries
    return (name ++ [':', ' '] ++ written) :: rest

end

/-- The text of a value that stands alone. -/
def plain? : Datum → Option Text
  | scalar (.text s) => some s
  | d => d.quoted?

/-! ## Data of a JSON value -/

mutual

def ofJson : Json → Datum
  | .null => null
  | .bool b => scalar (.bool b)
  | .int n => scalar (.int n)
  | .float x => scalar (.float x)
  | .text s => text s
  | .array items => list (ofJsonItems items)
  | .object members => mapping (ofJsonMembers members)

def ofJsonItems : List Json → List Datum
  | [] => []
  | item :: items => ofJson item :: ofJsonItems items

def ofJsonMembers : List (Text × Json) → List (Scalar × Datum)
  | [] => []
  | (key, value) :: members => (.text key, ofJson value) :: ofJsonMembers members

end

end Datum

end PatternBook
