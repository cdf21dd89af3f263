import PatternBook.Text.Basic

/-!
# Arguments

Options may stand before, between and behind the files, up to a double dash. A long option has its
value behind an equals sign or in the next argument, a short one in the rest of its own argument or
in the next; the next argument is taken as a value whatever it looks like. Short options without
values can share an argument. Of an option given twice the last counts.
-/

namespace PatternBook.CommandLine

/-- What the program is asked to do. -/
structure Request where
  files : List Text := []
  format : Text := "console".toList
  output : Option Text := none
  config : Option Text := none
  lenient : Bool := false
  verbose : Bool := false
  help : Bool := false
deriving DecidableEq

inductive Switch where
  | format
  | output
  | config
  | lenient
  | verbose
  | help
deriving DecidableEq

namespace Switch

def takesValue : Switch → Bool
  | format | output | config => true
  | lenient | verbose | help => false

def ofLong? (name : Text) : Option Switch :=
  match String.ofList name with
  | "--format" => some format
  | "--output" => some output
  | "--config" => some config
  | "--lenient" => some lenient
  | "--verbose" => some verbose
  | "--help" => some help
  | _ => none

def ofShort? : Char → Option Switch
  | 'f' => some format
  | 'o' => some output
  | 'c' => some config
  | 'v' => some verbose
  | _ => none

/-- The request with a switch set. The value is of no account where none is taken. -/
def set (w : Switch) (value : Text) (r : Request) : Request :=
  match w with
  | format => { r with format := value }
  | output => { r with output := some value }
  | config => { r with config := some value }
  | lenient => { r with lenient := true }
  | verbose => { r with verbose := true }
  | help => { r with help := true }

end Switch

/-- A request after some arguments, and the switch that waits for the next one as its value. -/
abbrev Progress := Request × Option Switch

/-- Short options that share an argument. -/
def readShort? (r : Request) : Text → Option Progress
  | [] => some (r, none)
  | c :: s =>
    match Switch.ofShort? c with
    | none => none
    | some w =>
      if w.takesValue then
        if s.isEmpty then some (r, some w) else some (w.set s r, none)
      else readShort? (w.set [] r) s

/-- An argument that begins with a dash and is no dash alone. -/
def readSwitch? (r : Request) (arg : Text) : Option Progress :=
  let (name, value) := Text.cutAt '=' arg
  match Switch.ofLong? name, value with
  | some w, some value => if w.takesValue then some (w.set value r, none) else none
  | some w, none => if w.takesValue then some (r, some w) else some (w.set [] r, none)
  | none, _ =>
    match arg with
    | '-' :: '-' :: _ => none
    | _ => readShort? r (arg.drop 1)

def isSwitch (arg : Text) : Bool := arg.head? == some '-' && 1 < arg.length

def readFrom? (r : Request) (waiting : Option Switch) : List Text → Option Request
  | [] => if waiting.isSome then none else some r
  | arg :: args =>
    match waiting with
    | some w => readFrom? (w.set arg r) none args
    | none =>
      if arg = ['-', '-'] then some { r with files := r.files ++ args }
      else if isSwitch arg then
        match readSwitch? r arg with
        | some (r, waiting) => readFrom? r waiting args
        | none => none
      else readFrom? { r with files := r.files ++ [arg] } none args

/-- The arguments of the command. There has to be a file, unless help is asked for. -/
def readRequest? (args : List Text) : Option Request :=
  match readFrom? {} none args with
  | some r => if r.files.isEmpty && !r.help then none else some r
  | none => none

/-- The command and its arguments. Before the command only a call for help is an option. -/
def readCommand? (help : Bool) : List Text → Option Request
  | [] => if help then some { help } else none
  | arg :: args =>
    if arg = ['-', '-'] then
      if help then some { help }
      else
        match args with
        | name :: args => if name = "parse".toList then readRequest? args else none
        | [] => none
    else if arg = "--help".toList then readCommand? true args
    else if isSwitch arg then none
    else if help then some { help }
    else if arg = "parse".toList then readRequest? args
    else none

end PatternBook.CommandLine
