import PatternBook.Text.Blank
import PatternBook.Text.Quoted

/-!
# Parameters

A parameter is declared as `{type} name - description`. Braces nest in the type. The name may stand
in brackets, which makes the parameter optional, and may have a default behind an equals sign.
-/

namespace PatternBook

structure Parameter where
  name : Text
  type : Text := []
  description : Text := []
  default : Option Text := none
  optional : Bool := false
deriving DecidableEq

structure MalformedParameter where
  line : Text
  pattern : Option Text
deriving DecidableEq

namespace MalformedParameter

/-- The pattern is named only if it has a name. -/
def message (m : MalformedParameter) : String :=
  let place :=
    match m.pattern with
    | none | some [] => ""
    | some name => " in pattern '" ++ String.ofList name ++ "'"
  "Malformed @param declaration" ++ place ++ ": " ++ String.ofList (Text.quoted m.line)

end MalformedParameter

namespace Parameter

/-- Cuts at the brace that closes the last of `depth + 1` open ones. -/
def cutBrace? (depth : Nat) : Text → Option (Text × Text)
  | [] => none
  | c :: s =>
    if c = '{' then (cutBrace? (depth + 1) s).map fun (type, rest) => (c :: type, rest)
    else if c = '}' then
      match depth with
      | 0 => some ([], s)
      | depth + 1 => (cutBrace? depth s).map fun (type, rest) => (c :: type, rest)
    else (cutBrace? depth s).map fun (type, rest) => (c :: type, rest)

/-- The text between the brace in front and the one that closes it, and what follows. -/
def splitType? (s : Text) : Option (Text × Text) :=
  match s.dropWhile Text.isBlank with
  | '{' :: rest => cutBrace? 0 rest
  | _ => none

/-- The bracketed group in front, or else the run of characters that are not blank, and what
follows. -/
def splitName (s : Text) : Text × Text :=
  match s, Text.cutAt ']' s with
  | '[' :: _, (before, some rest) => (before ++ [']'], rest)
  | _, _ => (s.takeWhile fun c => !Text.isBlank c, s.dropWhile fun c => !Text.isBlank c)

/-- A name of blanks only stands for the last of them. -/
def trimName (s : Text) : Text :=
  if Text.isBlankText s then s.getLast?.toList else Text.strip s

/-- Name and default of a declaration without its brackets. -/
def readName? (s : Text) : Option (Text × Option Text) :=
  let (name, default) := Text.cutAt '=' s
  if name.isEmpty || name.contains '[' || name.contains ']' || default.any (·.contains ']') then
    none
  else some (trimName name, default.map Text.strip)

/-- Name, default, and whether there were brackets. -/
def readDeclaration? (s : Text) : Option (Text × Option Text × Bool) :=
  match s with
  | '[' :: inner =>
    match Text.cutAt ']' inner with
    | (name, some []) => (readName? name).map fun (name, default) => (name, default, true)
    | _ => none
  | _ => (readName? s).map fun (name, default) => (name, default, false)

/-- The text behind a dash, if one stands in front. -/
def dropDash (s : Text) : Text :=
  match s.dropWhile Text.isBlank with
  | '-' :: rest => rest
  | rest => rest

def read? (s : Text) : Option Parameter :=
  match splitType? s with
  | none => none
  | some (type, rest) =>
    let (declaration, rest) := splitName (rest.dropWhile Text.isBlank)
    match readDeclaration? declaration with
    | none => none
    | some (name, default, optional) =>
      some
        { name, default, optional
          type := Text.strip type
          description := Text.strip (dropDash rest) }

def read (pattern : Option Text) (s : Text) : Except MalformedParameter Parameter :=
  match read? s with
  | some parameter => .ok parameter
  | none => .error ⟨s, pattern⟩

end Parameter

end PatternBook
