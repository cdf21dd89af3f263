import PatternBook.Cursor
import PatternBook.Fence
import PatternBook.Field.Value

/-!
# Reading fields

An entry is what a field says, before it is known of which pattern. Reading one steps over the
lines that belong to it; where there is a line, at least over that.
-/

namespace PatternBook

inductive Entry where
  | name (value : Text)
  | description (value : Text)
  | parameter (declaration : Text)
  | usage (description : Text) (blocks : List CodeBlock)
  | metadata (pair : Option (Text × Text))
  | todo (item : Text)
deriving DecidableEq

namespace Field

def readSingle (tag : Text) (c : Cursor) : Except CursorError (Text × Cursor) :=
  match c.shift with
  | .error e => .error e
  | .ok (line, rest) => .ok (single tag line, rest)

def readPair (tag : Text) (c : Cursor) : Except CursorError (Option (Text × Text) × Cursor) :=
  match readSingle tag c with
  | .error e => .error e
  | .ok (value, rest) => .ok (keyValue? value, rest)

def readFolded (tag : Option Text) (stop : Text → Bool) (c : Cursor) :
    Except CursorError (Text × Cursor) :=
  match c.takeBody stop with
  | .error e => .error e
  | .ok (ls, rest) => .ok (folded tag ls, rest)

def readVerbatim (tag : Option Text) (stop : Text → Bool) (c : Cursor) :
    Except CursorError (Text × Cursor) :=
  match c.takeBody stop with
  | .error e => .error e
  | .ok (ls, rest) => .ok (verbatim tag ls, rest)

/-- The fenced blocks of an example; without a fence the whole body is one block. -/
def codeBlocks (body : Text) : List CodeBlock :=
  let blocks := Fence.blocks body
  if blocks.isEmpty && !Text.isBlankText body then [{ code := body }] else blocks

/-- The body of an example, if the next line does not begin a field. -/
def readBlocks (c : Cursor) : Except CursorError (List CodeBlock × Cursor) :=
  match c.peek? with
  | none => .ok ([], c)
  | some line =>
    if isFieldLine line then .ok ([], c)
    else
      match readVerbatim none isFieldLine c with
      | .error e => .error e
      | .ok (body, rest) => .ok (codeBlocks body, rest)

def read (f : Field) (c : Cursor) : Except CursorError (Entry × Cursor) :=
  match f with
  | name =>
    match readSingle f.tag c with
    | .error e => .error e
    | .ok (value, rest) => .ok (.name value, rest)
  | description =>
    match readFolded (some f.tag) isFieldLine c with
    | .error e => .error e
    | .ok (value, rest) => .ok (.description value, rest)
  | parameter =>
    match readSingle f.tag c with
    | .error e => .error e
    | .ok (value, rest) => .ok (.parameter value, rest)
  | usage =>
    match readSingle f.tag c with
    | .error e => .error e
    | .ok (value, next) =>
      match readBlocks next with
      | .error e => .error e
      | .ok (blocks, rest) => .ok (.usage value blocks, rest)
  | metadata =>
    match readPair f.tag c with
    | .error e => .error e
    | .ok (pair, rest) => .ok (.metadata pair, rest)
  | todo =>
    match readFolded (some f.tag) isFieldLine c with
    | .error e => .error e
    | .ok (value, rest) => .ok (.todo value, rest)

/-! ## Progress -/

theorem remaining_readSingle {tag value : Text} {c d : Cursor}
    (h : readSingle tag c = .ok (value, d)) : d.remaining < c.remaining := by
  unfold readSingle at h
  split at h
  · simp at h
  · rename_i line rest hs
    have := Cursor.remaining_of_shift hs
    simp only [Except.ok.injEq, Prod.mk.injEq] at h
    rw [← h.2]; omega

theorem remaining_readFolded {tag : Option Text} {stop : Text → Bool} {value line : Text}
    {c c' d : Cursor} (hs : c.shift = .ok (line, c')) (h : readFolded tag stop c = .ok (value, d)) :
    d.remaining < c.remaining := by
  unfold readFolded at h
  split at h
  · simp at h
  · rename_i ls rest hb
    simp only [Except.ok.injEq, Prod.mk.injEq] at h
    rw [← h.2]; exact Cursor.remaining_takeBody hs hb

theorem remaining_readBlocks {c d : Cursor} {blocks : List CodeBlock}
    (h : readBlocks c = .ok (blocks, d)) : d.remaining ≤ c.remaining := by
  unfold readBlocks at h
  split at h
  · simp only [Except.ok.injEq, Prod.mk.injEq] at h
    exact Nat.le_of_eq (congrArg Cursor.remaining h.2.symm)
  · split at h
    · simp only [Except.ok.injEq, Prod.mk.injEq] at h
      exact Nat.le_of_eq (congrArg Cursor.remaining h.2.symm)
    · unfold readVerbatim at h
      cases hb : c.takeBody isFieldLine with
      | error e => simp [hb] at h
      | ok r =>
        simp only [hb, Except.ok.injEq, Prod.mk.injEq] at h
        rw [← h.2]; exact Cursor.remaining_takeFrom hb

theorem remaining_read {f : Field} {c c' d : Cursor} {line : Text} {entry : Entry}
    (hs : c.shift = .ok (line, c')) (hr : f.read c = .ok (entry, d)) :
    d.remaining < c.remaining := by
  unfold read at hr
  cases f with
  | name | parameter =>
    simp only at hr
    split at hr
    · simp at hr
    · rename_i h
      simp only [Except.ok.injEq, Prod.mk.injEq] at hr
      rw [← hr.2]; exact remaining_readSingle h
  | description | todo =>
    simp only at hr
    split at hr
    · simp at hr
    · rename_i h
      simp only [Except.ok.injEq, Prod.mk.injEq] at hr
      rw [← hr.2]; exact remaining_readFolded hs h
  | usage =>
    simp only at hr
    split at hr
    · simp at hr
    · rename_i value next h
      split at hr
      · simp at hr
      · rename_i hb
        have h₁ := remaining_readSingle h
        have h₂ := remaining_readBlocks hb
        simp only [Except.ok.injEq, Prod.mk.injEq] at hr
        rw [← hr.2]; omega
  | metadata =>
    unfold readPair at hr
    cases h : readSingle metadata.tag c with
    | error e => simp [h] at hr
    | ok r =>
      simp only [h, Except.ok.injEq, Prod.mk.injEq] at hr
      rw [← hr.2]; exact remaining_readSingle h

end Field

end PatternBook
