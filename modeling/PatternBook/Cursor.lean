import PatternBook.Text.Basic

/-!
# Line cursors

A cursor is a position in a fixed sequence of lines: `passed` and `ahead` are the lines on its two
sides. It steps over the front line, and back over the line that it stepped over last.
-/

namespace PatternBook

structure Cursor where
  lines : Array Text
  pos : Nat
  pos_le : pos ≤ lines.size

inductive CursorError where
  | exhausted
  | notPrevious
deriving DecidableEq

namespace CursorError

def message : CursorError → String
  | exhausted => "shift() called on an exhausted line cursor"
  | notPrevious => "unshift() may only replay the previously shifted line"

end CursorError

namespace Cursor

def ofLines (ls : List Text) : Cursor := ⟨ls.toArray, 0, Nat.zero_le _⟩

def ofText (s : Text) : Cursor := ofLines (Text.lines s)

def passed (c : Cursor) : List Text := c.lines.toList.take c.pos

def ahead (c : Cursor) : List Text := c.lines.toList.drop c.pos

def consumed (c : Cursor) : Nat := c.pos

def remaining (c : Cursor) : Nat := c.lines.size - c.pos

def atEnd (c : Cursor) : Bool := !decide (c.pos < c.lines.size)

def peek? (c : Cursor) : Option Text := c.lines[c.pos]?

def shift (c : Cursor) : Except CursorError (Text × Cursor) :=
  if h : c.pos < c.lines.size then .ok (c.lines[c.pos], ⟨c.lines, c.pos + 1, h⟩)
  else .error .exhausted

/-- Steps back over the line passed last, which the caller has to name. -/
def unshift (c : Cursor) (line : Text) : Except CursorError Cursor :=
  if 0 < c.pos ∧ c.lines[c.pos - 1]? = some line then
    .ok ⟨c.lines, c.pos - 1, Nat.le_trans (Nat.sub_le _ _) c.pos_le⟩
  else .error .notPrevious

theorem remaining_of_shift {c c' : Cursor} {line : Text} (h : c.shift = .ok (line, c')) :
    c'.remaining + 1 = c.remaining := by
  unfold shift at h
  split at h
  · simp only [Except.ok.injEq, Prod.mk.injEq] at h
    obtain ⟨_, rfl⟩ := h
    simp only [remaining]; omega
  · simp at h

theorem remaining_of_unshift {c c' : Cursor} {line : Text} (h : c.unshift line = .ok c') :
    c'.remaining = c.remaining + 1 := by
  unfold unshift at h
  split at h
  · rename_i hp
    have := c.pos_le
    simp only [Except.ok.injEq] at h
    subst h
    simp only [remaining]; omega
  · simp at h

/-! ## Taking a body -/

/-- Takes lines up to the next that `stop` accepts, which is stepped over and then back. The first
line of all is taken whatever it is; `taken` are the lines so far. -/
def takeFrom (stop : Text → Bool) (taken : List Text) (c : Cursor) :
    Except CursorError (List Text × Cursor) :=
  match _h : c.shift with
  | .error _ => .ok (taken, c)
  | .ok (line, next) =>
    if !taken.isEmpty && stop line then
      match next.unshift line with
      | .error e => .error e
      | .ok back => .ok (taken, back)
    else takeFrom stop (taken ++ [line]) next
termination_by c.remaining
decreasing_by have := remaining_of_shift _h; omega

/-- The front line, whatever it is, and the lines before the next that `stop` accepts. -/
def takeBody (stop : Text → Bool) (c : Cursor) : Except CursorError (List Text × Cursor) :=
  takeFrom stop [] c

theorem remaining_takeFrom {stop : Text → Bool} {taken ls : List Text} {c d : Cursor}
    (h : takeFrom stop taken c = .ok (ls, d)) : d.remaining ≤ c.remaining := by
  fun_induction takeFrom stop taken c with
  | case1 taken c e hs =>
    simp only [Except.ok.injEq, Prod.mk.injEq] at h
    exact Nat.le_of_eq (congrArg Cursor.remaining h.2.symm)
  | case2 => simp at h
  | case3 taken c line next hs _ back hu =>
    have h₁ := remaining_of_shift hs
    have h₂ := remaining_of_unshift hu
    simp only [Except.ok.injEq, Prod.mk.injEq] at h
    rw [← h.2]; omega
  | case4 taken c line next hs _ ih =>
    have h₁ := remaining_of_shift hs
    have h₂ := ih h
    omega

theorem remaining_takeBody {stop : Text → Bool} {ls : List Text} {c c' d : Cursor} {line : Text}
    (hs : c.shift = .ok (line, c')) (h : takeBody stop c = .ok (ls, d)) :
    d.remaining < c.remaining := by
  have h₁ := remaining_of_shift hs
  rw [takeBody, takeFrom] at h
  split at h
  · simp_all
  · rename_i line' next hs'
    rw [hs] at hs'
    simp only [Except.ok.injEq, Prod.mk.injEq] at hs'
    obtain ⟨rfl, rfl⟩ := hs'
    simp only [List.isEmpty_nil, Bool.not_true, Bool.false_and, Bool.false_eq_true, if_false] at h
    have h₂ := remaining_takeFrom h
    omega

end Cursor

end PatternBook
