import PatternBook.Text.Basic

/-!
# Places in a YAML text

A place is what remains of a text, with the line and column where it begins. `fresh` says that a key
may begin there: nothing but indentation and dashes stands before it on its line. Line breaks inside
a scalar are folded: one becomes a space, of several the first is dropped.
-/

namespace PatternBook.Yaml

def isBreak (c : Char) : Bool :=
  c == '\n' || c == '\u0085' || c == '\u2028' || c == '\u2029'

def isGap (c : Char) : Bool := c == ' ' || c == '\t' || isBreak c

/-- At the end of the text, or before a blank. -/
def endsWord (s : Text) : Bool := s.head?.all isGap

structure Place where
  rest : Text
  line : Nat := 0
  column : Nat := 0
  fresh : Bool := true

namespace Place

/-- Steps over one character. -/
def step (p : Place) (c : Char) : Place :=
  let rest := p.rest.drop 1
  if isBreak c then { rest, line := p.line + 1, column := 0, fresh := true }
  else { p with rest, column := p.column + 1 }

/-- Moves on to a place where `rest` remains. -/
def moveTo (p : Place) (rest : Text) : Place :=
  (p.rest.take (p.rest.length - rest.length)).foldl step p

/-- What remains behind blanks, comments and line breaks. A tab is no blank here. -/
def afterGap (comment : Bool) : Text → Text
  | [] => []
  | c :: s =>
    if isBreak c then afterGap false s
    else if comment || c = '#' then afterGap true s
    else if c = ' ' then afterGap false s
    else c :: s

def gap (p : Place) : Place := p.moveTo (afterGap false p.rest)

def atEnd (p : Place) : Bool := p.rest.isEmpty

/-- At a line that ends or begins a document. -/
def atMarker (p : Place) : Bool :=
  p.column == 0
    && match p.rest with
      | '-' :: '-' :: '-' :: s => endsWord s
      | '.' :: '.' :: '.' :: s => endsWord s
      | _ => false

/-- At the dash of a list item. -/
def atDash (p : Place) : Bool :=
  match p.rest with
  | '-' :: s => endsWord s
  | _ => false

end Place

/-! ## Folded line breaks -/

def foldBreaks (n : Nat) : Text := if n = 1 then [' '] else List.replicate (n - 1) '\n'

/-- The line breaks in front, the indentation behind them, and the rest. -/
def takeBreaks (n column : Nat) : Text → Nat × Nat × Text
  | [] => (n, column, [])
  | c :: s =>
    if isBreak c then takeBreaks (n + 1) 0 s
    else if c = ' ' then takeBreaks n (column + 1) s
    else (n, column, c :: s)

/-! ## Plain scalars -/

/-- Where a plain scalar ends: at a blank, at a colon before a blank, and, inside brackets, at
their punctuation. -/
def endsPlain (flow : Bool) (c : Char) (s : Text) : Bool :=
  isGap c || (flow && [',', '?', '[', ']', '{', '}'].contains c)
    || (c == ':'
      && (endsWord s || (flow && s.head?.any [',', '[', ']', '{', '}'].contains)))

/-- Whether a plain scalar can begin with this character. -/
def beginsPlain (flow : Bool) (c : Char) (s : Text) : Bool :=
  if c = '-' || (!flow && (c = '?' || c = ':')) then !endsWord s
  else
    !(isGap c
      || ['-', '?', ':', ',', '[', ']', '{', '}', '#', '&', '*', '!', '|', '>', '\'', '"', '%',
        '@', '\x60'].contains c)

/-- The part of a plain scalar on one line, with `spaces` before it, and the rest. -/
def plainLine (flow : Bool) (spaces : Text) : Text → Text × Text
  | [] => ([], [])
  | c :: s =>
    if c = ' ' then plainLine flow (spaces ++ [c]) s
    else if endsPlain flow c s || (c = '#' && !spaces.isEmpty) then ([], c :: s)
    else
      let (more, rest) := plainLine flow [] s
      (spaces ++ c :: more, rest)

/-- The lines of a plain scalar. It goes on in a line that is indented by `bound` at least; inside
brackets in any line. Each call but the first takes a line break. -/
def plainLines (flow : Bool) (bound : Nat) : Nat → Text → Text × Text
  | 0, s => ([], s)
  | fuel + 1, s =>
    let (content, rest) := plainLine flow [] s
    if content.isEmpty then ([], s)
    else
      let (breaks, column, next) := takeBreaks 0 0 rest
      let place : Place := { rest := next, column }
      if breaks = 0 || next.isEmpty || place.atMarker || next.head? = some '#'
          || (!flow && column < bound) then (content, rest)
      else
        let (more, last) := plainLines flow bound fuel next
        if more.isEmpty then (content, rest) else (content ++ foldBreaks breaks ++ more, last)

def plainText (flow : Bool) (bound : Nat) (s : Text) : Text × Text :=
  plainLines flow bound (s.length + 1) s

/-! ## Quoted scalars -/

def escapes : List (Char × Char) :=
  [('0', '\x00'), ('a', '\x07'), ('b', '\x08'), ('t', '\t'), ('\t', '\t'), ('n', '\n'),
   ('v', '\x0b'), ('f', '\x0c'), ('r', '\r'), ('e', '\x1b'), (' ', ' '), ('"', '"'), ('\\', '\\'),
   ('/', '/'), ('N', '\u0085'), ('_', '\u00a0'), ('L', '\u2028'),
   ('P', '\u2029')]

/-- The text up to the closing mark, and the rest. `spaces` are the blanks since the last
character or line break, `breaks` the line breaks since the last character. -/
def quotedText? (mark : Char) (spaces : Text) (breaks : Nat) : Text → Option (Text × Text)
  | [] => none
  | c :: s =>
    if isBreak c then quotedText? mark [] (breaks + 1) s
    else if c = ' ' || c = '\t' then
      quotedText? mark (if breaks = 0 then spaces ++ [c] else []) breaks s
    else
      let lead := if breaks = 0 then spaces else foldBreaks breaks
      if c = mark then
        match s with
        | d :: t =>
          if mark = '\'' && d = '\'' then
            (quotedText? mark [] 0 t).map fun (more, rest) => (lead ++ d :: more, rest)
          else some (lead, d :: t)
        | [] => some (lead, [])
      else if mark = '"' && c = '\\' then
        match s with
        | d :: t =>
          match escapes.lookup d with
          | some e => (quotedText? mark [] 0 t).map fun (more, rest) => (lead ++ e :: more, rest)
          | none => none
        | [] => none
      else (quotedText? mark [] 0 s).map fun (more, rest) => (lead ++ c :: more, rest)

end PatternBook.Yaml
