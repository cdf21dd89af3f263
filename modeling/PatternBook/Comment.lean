import PatternBook.Text.Blank

/-!
# Comment blocks

A comment opens with `/*` and a run of border characters, and closes with a run of border
characters and `*/`. The whole border run after the opening belongs to the border, so the close
is the first `*/` that begins after it. Only where there is none does the run give back its last
character: if that is the star of a `*/`, the comment is empty.
-/

namespace PatternBook.Comment

def isBorder (c : Char) : Bool := Text.isBlank c || c == '*' || c == '=' || c == '-'

/-- What follows the first `/*`. -/
def afterOpen? : Text → Option Text
  | '/' :: '*' :: s => some s
  | _ :: s => afterOpen? s
  | [] => none

/-- What stands before and after the first `*/`. -/
def cutClose? : Text → Option (Text × Text)
  | '*' :: '/' :: s => some ([], s)
  | c :: s => (cutClose? s).map fun (body, rest) => (c :: body, rest)
  | [] => none

theorem afterOpen?_length {s r : Text} (h : afterOpen? s = some r) : r.length < s.length := by
  fun_induction afterOpen? s with
  | case1 s => simp only [Option.some.injEq] at h; subst h; simp only [List.length_cons]; omega
  | case2 c s _ ih => have := ih h; simp only [List.length_cons]; omega
  | case3 => simp at h

theorem cutClose?_length {s b r : Text} (h : cutClose? s = some (b, r)) :
    r.length < s.length := by
  fun_induction cutClose? s generalizing b with
  | case1 s =>
    simp only [Option.some.injEq, Prod.mk.injEq] at h
    obtain ⟨_, rfl⟩ := h
    simp only [List.length_cons]; omega
  | case2 c s _ ih =>
    simp only [Option.map_eq_some_iff, Prod.mk.injEq, Prod.exists] at h
    obtain ⟨b', r', h', _, rfl⟩ := h
    have := ih h'
    simp only [List.length_cons]; omega
  | case3 => simp at h

theorem dropBorder_length (s : Text) : (s.dropWhile isBorder).length ≤ s.length :=
  (List.dropWhile_suffix isBorder).length_le

/-- One comment of a text: its body without the borders, and what follows the comment. -/
def next? (text : Text) : Option (Text × Text) :=
  match afterOpen? text with
  | none => none
  | some inner =>
    match cutClose? (inner.dropWhile isBorder) with
    | some (body, rest) => some (Text.trimEnd isBorder body, rest)
    | none =>
      match (inner.takeWhile isBorder).getLast?, inner.dropWhile isBorder with
      | some '*', '/' :: rest => some ([], rest)
      | _, _ => none

theorem next?_length {text body rest : Text} (h : next? text = some (body, rest)) :
    rest.length < text.length := by
  unfold next? at h
  split at h
  · simp at h
  · rename_i inner hi
    have h₁ := afterOpen?_length hi
    have h₂ := dropBorder_length inner
    split at h
    · rename_i b r hc
      have h₃ := cutClose?_length hc
      simp only [Option.some.injEq, Prod.mk.injEq] at h
      obtain ⟨_, rfl⟩ := h
      omega
    · split at h
      · rename_i r hd
        simp only [Option.some.injEq, Prod.mk.injEq] at h
        obtain ⟨_, rfl⟩ := h
        rw [hd] at h₂
        simp only [List.length_cons] at h₂; omega
      · simp at h

/-- The bodies of all comments, in order. -/
def bodies (text : Text) : List Text :=
  match _h : next? text with
  | none => []
  | some (body, rest) => body :: bodies rest
termination_by text.length
decreasing_by exact next?_length _h

end PatternBook.Comment
