import PatternBook.Yaml.Place
import PatternBook.Yaml.Scalar

/-!
# Reading YAML

Mappings and sequences by indentation or in brackets, and scalars plain or quoted. The entries of a
mapping and the items of a sequence stand in one column; what they hold stands further right, but
the dashes of a sequence may stand below the key that holds it. What is left over at the end is an
error, so each reader stops where the next line does not continue it. Anchors, tags, block scalars
and directives are refused.

Each call spends one unit of fuel, and of two nested calls one takes a character.
-/

namespace PatternBook.Yaml

/-- A colon on the line of a key that begins at `p` and ends at `q`, and the place behind it. Inside
brackets no blank need follow. -/
def afterColon? (flow : Bool) (p q : Place) : Option Place :=
  match q.rest.dropWhile (· == ' ') with
  | ':' :: s =>
    if p.line = q.line && (flow || endsWord s) then some { q.moveTo s with fresh := false }
    else none
  | _ => none

def quotedAt? (mark : Char) (p : Place) : Option (Datum × Place) :=
  (quotedText? mark [] 0 (p.rest.drop 1)).map fun (s, rest) =>
    (.text s, { p.moveTo rest with fresh := false })

def plainAt? (flow : Bool) (bound : Nat) (p : Place) : Option (Datum × Place) :=
  match p.rest with
  | c :: s =>
    if beginsPlain flow c s then
      let (content, rest) := plainText flow bound p.rest
      some (.scalar (plainScalar content), { p.moveTo rest with fresh := false })
    else none
  | [] => none

def asKey? : Datum → Option Scalar
  | .scalar key => some key
  | _ => none

/-! ## In brackets -/

mutual

def flowNode? : Nat → Place → Option (Datum × Place)
  | 0, _ => none
  | fuel + 1, p =>
    if p.atMarker then none
    else
      match p.rest with
      | '[' :: s => (flowItems? fuel (p.moveTo s)).map fun (items, q) => (.list items, q)
      | '{' :: s =>
        (flowEntries? fuel (p.moveTo s)).map fun (entries, q) => (Datum.ofEntries entries, q)
      | '"' :: _ => quotedAt? '"' p
      | '\'' :: _ => quotedAt? '\'' p
      | _ => plainAt? true 0 p

/-- The value behind a colon; none before a comma or bracket. -/
def flowValue? : Nat → Place → Option (Datum × Place)
  | 0, _ => none
  | fuel + 1, p =>
    match p.gap.rest with
    | ',' :: _ | ']' :: _ | '}' :: _ => some (.null, p.gap)
    | _ => flowNode? fuel p.gap

/-- Items up to the closing bracket. A key and a value make a mapping of one entry. -/
def flowItems? : Nat → Place → Option (List Datum × Place)
  | 0, _ => none
  | fuel + 1, p =>
    let p := p.gap
    match p.rest with
    | ']' :: s => some ([], { p.moveTo s with fresh := false })
    | _ => do
      let (node, q) ← flowNode? fuel p
      let (item, q) ← match afterColon? true p q with
        | none => some (node, q)
        | some r => do
          let key ← asKey? node
          let (value, r) ← flowValue? fuel r
          some (Datum.mapping [(key, value)], r)
      let q := q.gap
      match q.rest with
      | ',' :: s =>
        let (items, r) ← flowItems? fuel (q.moveTo s)
        some (item :: items, r)
      | ']' :: s => some ([item], { q.moveTo s with fresh := false })
      | _ => none

/-- Entries up to the closing brace. A key alone has the value null. -/
def flowEntries? : Nat → Place → Option (List (Scalar × Datum) × Place)
  | 0, _ => none
  | fuel + 1, p =>
    let p := p.gap
    match p.rest with
    | '}' :: s => some ([], { p.moveTo s with fresh := false })
    | _ => do
      let (node, q) ← flowNode? fuel p
      let key ← asKey? node
      let (value, q) ← match afterColon? true p q with
        | none => some (Datum.null, q)
        | some r => flowValue? fuel r
      let q := q.gap
      match q.rest with
      | ',' :: s =>
        let (entries, r) ← flowEntries? fuel (q.moveTo s)
        some ((key, value) :: entries, r)
      | '}' :: s => some ([(key, value)], { q.moveTo s with fresh := false })
      | _ => none

end

/-! ## By indentation -/

/-- A scalar or a bracketed node; a plain scalar goes on in lines indented by `bound`. -/
def atom? (bound : Nat) (p : Place) : Option (Datum × Place) :=
  match p.rest with
  | '[' :: _ | '{' :: _ | '"' :: _ | '\'' :: _ => flowNode? (2 * p.rest.length + 1) p
  | _ => plainAt? false bound p

/-- A key that begins here, and the place behind its colon. -/
def key? (bound : Nat) (p : Place) : Option (Scalar × Place) := do
  let (node, q) ← atom? bound p
  let r ← afterColon? false p q
  let key ← asKey? node
  some (key, r)

mutual

/-- The node that begins here, in a column no less than `bound`; null if there is none. -/
def blockNode? : Nat → Nat → Place → Option (Datum × Place)
  | 0, _, _ => none
  | fuel + 1, bound, p =>
    if p.atEnd || p.atMarker || p.column < bound then some (.null, p)
    else if p.atDash then
      if p.fresh then
        (blockItems? fuel p.column p).map fun (items, q) => (.list items, q)
      else none
    else do
      let (node, q) ← atom? bound p
      match afterColon? false p q with
      | none => some (node, q)
      | some r =>
        if p.fresh then
          let key ← asKey? node
          let (entries, q) ← blockEntries? fuel p.column key r
          some (Datum.ofEntries entries, q)
        else none

/-- The items whose dashes stand in a column, from the dash on. -/
def blockItems? : Nat → Nat → Place → Option (List Datum × Place)
  | 0, _, _ => none
  | fuel + 1, column, p => do
    let (item, q) ← blockNode? fuel (column + 1) { p.step '-' with fresh := true }.gap
    let q := q.gap
    if q.column = column && q.atDash && !q.atMarker then
      let (items, r) ← blockItems? fuel column q
      some (item :: items, r)
    else some ([item], q)

/-- The entries whose keys stand in a column, from behind the colon of the first on. -/
def blockEntries? : Nat → Nat → Scalar → Place → Option (List (Scalar × Datum) × Place)
  | 0, _, _, _ => none
  | fuel + 1, column, key, p => do
    let q := p.gap
    let (value, q) ←
      if q.column = column && q.fresh && q.atDash then
        (blockItems? fuel column q).map fun (items, r) => (.list items, r)
      else blockNode? fuel (column + 1) q
    let q := q.gap
    if q.atEnd || q.atMarker || q.column ≠ column then some ([(key, value)], q)
    else
      let (next, r) ← key? (column + 1) q
      let (entries, r) ← blockEntries? fuel column next r
      some ((key, value) :: entries, r)

end

/-! ## Documents -/

/-- The characters that may stand in a document. -/
def isAllowed (c : Char) : Bool :=
  let n := c.toNat
  n == 0x9 || n == 0xA || n == 0xD || (0x20 ≤ n && n ≤ 0x7E) || n == 0x85
    || (0xA0 ≤ n && n ≤ 0xFFFD) || 0x10000 ≤ n

/-- The place where the content of a document begins. -/
def begin (s : Text) : Place :=
  let s := match s with
    | '\ufeff' :: s => s
    | s => s
  let p := Place.gap { rest := s }
  if p.atMarker then
    match p.rest with
    | '-' :: '-' :: '-' :: s => Place.gap { p.moveTo s with fresh := false }
    | _ => p
  else p

/-- Nothing is left but a line that ends the document. -/
def isDone (p : Place) : Bool :=
  p.atEnd
    || (p.atMarker
      && match p.rest with
        | '.' :: '.' :: '.' :: s => (Place.gap { rest := s }).atEnd
        | _ => false)

/-- The value of a document. -/
def read? (s : Text) : Option Datum :=
  if s.all isAllowed then
    match blockNode? (2 * s.length + 4) 0 (begin s) with
    | some (value, p) => if isDone p.gap then some value else none
    | none => none
  else none

end PatternBook.Yaml
