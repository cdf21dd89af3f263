import PatternBook.Proofs.AlikeSound

/-!
# Blanks at the ends of lines

Blanks put in at the ends of lines are never part of a mark, and the border of a comment takes them like
the line break behind them. So the bodies of the comments differ by blanks at the ends of lines only, and
such lines are alike: a source text is read the same with carriage returns in front of its line breaks.
-/

namespace PatternBook

namespace Text

def LineBlank (w : Text) : Prop := ∀ c ∈ w, isBlank c = true ∧ c ≠ '\n'

instance (w : Text) : Decidable (LineBlank w) := inferInstanceAs (Decidable (∀ c ∈ w, _))

/-- The second text is the first with blanks put in before line breaks and at the end. -/
inductive Trailed : Text → Text → Prop
  | last {w : Text} : LineBlank w → Trailed [] w
  | line {w s t : Text} : LineBlank w → Trailed s t → Trailed ('\n' :: s) (w ++ '\n' :: t)
  | char {c : Char} {s t : Text} : c ≠ '\n' → Trailed s t → Trailed (c :: s) (c :: t)

theorem LineBlank.nil : LineBlank [] := by simp [LineBlank]

theorem LineBlank.isBlank {w : Text} (h : LineBlank w) : ∀ c ∈ w, isBlank c = true := fun c hc => (h c hc).1

theorem LineBlank.newline {w : Text} (h : LineBlank w) : '\n' ∉ w := fun hc => (h _ hc).2 rfl

theorem Trailed.refl : ∀ s : Text, Trailed s s
  | [] => .last .nil
  | c :: s => by
    by_cases hc : c = '\n'
    · subst hc
      exact .line .nil (refl s)
    · exact .char hc (refl s)

def withReturns (s : Text) : Text := s.flatMap fun c => if c = '\n' then ['\r', '\n'] else [c]

theorem trailed_withReturns : ∀ s : Text, Trailed s (withReturns s)
  | [] => .last .nil
  | c :: s => by
    unfold withReturns
    rw [List.flatMap_cons]
    by_cases hc : c = '\n'
    · subst hc
      exact .line (w := ['\r']) (by decide) (trailed_withReturns s)
    · rw [if_neg hc]
      exact .char hc (trailed_withReturns s)

/-! ## Lines -/

theorem lines_of_not_mem {w : Text} (h : '\n' ∉ w) : lines w = [w] := by
  have hl := lines_unlines (List.cons_ne_nil w []) (by simpa using h)
  simpa [unlines, join] using hl

theorem lines_append_newline {w : Text} (h : '\n' ∉ w) (t : Text) : lines (w ++ '\n' :: t) = w :: lines t := by
  rw [lines_append, lines_of_not_mem h]
  rfl

theorem lines_cons {c : Char} (hc : c ≠ '\n') {s l : Text} {ls : List Text} (h : lines s = l :: ls) :
    lines (c :: s) = (c :: l) :: ls := by
  unfold lines at h ⊢
  rw [splitAt, if_neg hc, h]

theorem Trailed.lines {s t : Text} (h : Trailed s t) :
    List.Forall₂ (fun l l' => ∃ w, LineBlank w ∧ l' = l ++ w) (lines s) (lines t) := by
  induction h with
  | last hw =>
    rw [lines_of_not_mem hw.newline]
    exact .cons ⟨_, hw, rfl⟩ .nil
  | @line w s t hw _ ih =>
    rw [lines_append_newline hw.newline]
    exact .cons ⟨w, hw, rfl⟩ ih
  | @char c s t hc _ ih =>
    obtain ⟨l, ls, hs⟩ := List.exists_cons_of_ne_nil (lines_ne_nil s)
    obtain ⟨l', ls', ht⟩ := List.exists_cons_of_ne_nil (lines_ne_nil t)
    rw [hs, ht] at ih
    rw [lines_cons hc hs, lines_cons hc ht]
    cases ih with
    | cons hl hls =>
      obtain ⟨w, hw, rfl⟩ := hl
      exact .cons ⟨w, hw, rfl⟩ hls

/-! ## Marks and words -/

theorem after?_cons_blank {m c : Char} (hm : isBlank m = false) (hc : isBlank c = true) (mark s : Text) :
    after? (m :: mark) (c :: s) = none := by
  have hne : m ≠ c := by
    rintro rfl
    rw [hm] at hc
    cases hc
  rw [after?, if_neg hne]

theorem exists_span_of_inSpans {n : Nat} : ∀ {spans : List (Nat × Nat)}, inSpans spans n = true →
    ∃ p ∈ spans, p.1 ≤ n ∧ n ≤ p.2
  | [], h => by simp [inSpans] at h
  | (lo, hi) :: spans, h => by
    simp only [inSpans, Bool.and_eq_true, Bool.or_eq_true, decide_eq_true_eq] at h
    rcases h with ⟨hlo, hhi | h⟩
    · exact ⟨(lo, hi), List.mem_cons_self .., hlo, hhi⟩
    · obtain ⟨p, hp, hn⟩ := exists_span_of_inSpans h
      exact ⟨p, List.mem_cons_of_mem _ hp, hn⟩

theorem isWord_of_isBlank {c : Char} (h : isBlank c = true) : isWord c = false := by
  have hspans : ∀ p ∈ blankSpans, ∀ n ∈ List.range' p.1 (p.2 + 1 - p.1), inSpans wordSpans n = false := by
    decide +kernel
  obtain ⟨p, hp, hlo, hhi⟩ := exists_span_of_inSpans h
  exact hspans p hp c.toNat (List.mem_range'_1.mpr ⟨hlo, by omega⟩)

end Text

/-! ## Lines with blanks behind them -/

namespace Field

theorem isBlank_tag (f : Field) : ∀ c ∈ f.tag, Text.isBlank c = false := by
  cases f <;> decide

section
variable {w : Text} (hw : ∀ c ∈ w, Text.isBlank c = true)
include hw

theorem after?_append_blank {mark : Text} (hm : ∀ c ∈ mark, Text.isBlank c = false) (s : Text) :
    Text.after? mark (s ++ w) = (Text.after? mark s).map (· ++ w) := by
  induction mark generalizing s with
  | nil => rfl
  | cons m mark ih =>
    rw [List.forall_mem_cons] at hm
    cases s with
    | nil =>
      cases w with
      | nil => rfl
      | cons c w => exact Text.after?_cons_blank hm.1 (hw c (List.mem_cons_self ..)) mark w
    | cons c s =>
      rw [List.cons_append, Text.after?, Text.after?]
      split
      · exact ih hm.2 s
      · rfl

/-- A tag is found with blanks behind the line where it is found without them, and the value behind it has
more blanks at its end. -/
theorem after?_tag_blank (f : Field) (l : Text) :
    (Tag.after? f.tag (l ++ w)).map Text.strip = (Tag.after? f.tag l).map Text.strip := by
  obtain ⟨w', hsub, hd⟩ := Text.dropWhile_append_eq Tag.isDecoration l w
  have hw' : ∀ c ∈ w', Text.isBlank c = true := fun c hc => hw c (hsub.subset hc)
  rw [after?_tag, after?_tag, hd, Tag.here?, Tag.here?, after?_append_blank hw' f.isBlank_tag]
  cases Text.after? f.tag (l.dropWhile Tag.isDecoration) with
  | none => rfl
  | some rest =>
    have hword : ∀ before, Text.wordBoundary before (rest ++ w').head? = Text.wordBoundary before rest.head? := by
      intro before
      cases rest with
      | cons c rest => rfl
      | nil =>
        cases w' with
        | nil => rfl
        | cons c w' => simp [Text.wordBoundary, Text.isWord_of_isBlank (hw' c (List.mem_cons_self ..))]
    have hstrip : Text.strip ((rest ++ w').dropWhile Text.isIndent) =
        Text.strip (rest.dropWhile Text.isIndent) := by
      rw [Text.strip_dropWhile_isIndent, Text.strip_dropWhile_isIndent]
      exact Text.trim_append_end hw'
    simp only [Option.map_some, hword]
    split
    · exact congrArg some hstrip
    · rfl

theorem ofLine?_append_blank (l : Text) : ofLine? (l ++ w) = ofLine? l := by
  have hb : ∀ f : Field, f.begins (l ++ w) = f.begins l := by
    intro f
    have h := congrArg Option.isSome (after?_tag_blank hw f l)
    rwa [Option.isSome_map, Option.isSome_map] at h
  unfold ofLine?
  simp only [hb]

theorem single_append_blank (f : Field) (l : Text) : single f.tag (l ++ w) = single f.tag l := by
  have h := after?_tag_blank hw f l
  unfold single
  cases hl : Tag.after? f.tag l with
  | some rest =>
    rw [hl] at h
    obtain ⟨rest', hr, hs⟩ := Option.map_eq_some_iff.mp h
    rw [hr]
    exact hs
  | none =>
    rw [hl] at h
    obtain ⟨w', hsub, hd⟩ := Text.dropWhile_append_eq isMargin l w
    rw [Option.map_eq_none_iff.mp h]
    simp only [hd]
    exact Text.trim_append_end fun c hc => hw c (hsub.subset hc)

theorem undecorated_append_blank {l : Text} (h : Undecorated l) : Undecorated (l ++ w) := by
  obtain ⟨w', hsub, hd⟩ := Text.dropWhile_append_eq Text.isIndent l w
  unfold Undecorated at h ⊢
  rw [hd]
  cases hl : l.dropWhile Text.isIndent with
  | nil =>
    intro hs
    exact absurd (hw '*' (hsub.subset (List.mem_of_head? hs))) (by decide)
  | cons c rest =>
    rw [hl] at h
    exact h

/-- No star is one of the blanks, but the indentation behind a star may be. -/
theorem dropMarker_append_blank (l : Text) : ∃ v, v <:+ w ∧ dropMarker (l ++ w) = dropMarker l ++ v := by
  by_cases hu : Undecorated l
  · refine ⟨w, List.suffix_refl w, ?_⟩
    rw [dropMarker_of_undecorated hu, dropMarker_of_undecorated (undecorated_append_blank hw hu)]
  · obtain ⟨rest, hd⟩ : ∃ rest, l.dropWhile Text.isIndent = '*' :: rest := by
      simpa [Undecorated, List.head?_eq_some_iff] using hu
    have hd' : (l ++ w).dropWhile Text.isIndent = '*' :: (rest ++ w) := by
      rw [List.dropWhile_append, hd]; rfl
    unfold dropMarker
    rw [hd, hd']
    cases rest with
    | nil =>
      cases w with
      | nil => exact ⟨[], List.suffix_refl [], rfl⟩
      | cons c w =>
        have hc : c ≠ '/' := by
          rintro rfl
          exact absurd (hw '/' (List.mem_cons_self ..)) (by decide)
        by_cases hi : Text.isIndent c = true
        · exact ⟨w, List.suffix_cons c w, by simp [hi]⟩
        · exact ⟨c :: w, List.suffix_refl _, by simp [hi]⟩
    | cons c rest =>
      refine ⟨w, List.suffix_refl w, ?_⟩
      by_cases hc : c = '/'
      · subst hc; rfl
      · by_cases hi : Text.isIndent c = true <;> simp [hi]

theorem alike_append_blank (l : Text) : Alike l (l ++ w) where
  field := (ofLine?_append_blank hw l).symm
  value := fun f => (single_append_blank hw f l).symm
  text := by
    obtain ⟨v, hv, hd⟩ := dropMarker_append_blank hw l
    rw [hd]
    exact (Text.trimEnd_append fun c hc => hw c (hv.subset hc)).symm

end

end Field

/-! ## Comments -/

namespace Comment

open Text (Trailed)

def TrailedCut (a b : Text × Text) : Prop := Trailed a.1 b.1 ∧ Trailed a.2 b.2

theorem rel_map {α β : Type} {R : α → α → Prop} {S : β → β → Prop} {f g : α → β}
    (hfg : ∀ a b, R a b → S (f a) (g b)) {x y : Option α} (h : Option.Rel R x y) :
    Option.Rel S (x.map f) (y.map g) := by
  cases h with
  | none => exact .none
  | some hr => exact .some (hfg _ _ hr)

theorem rel_cases {α : Type} {R : α → α → Prop} {x y : Option α} (h : Option.Rel R x y) :
    (x = none ∧ y = none) ∨ ∃ a b, x = some a ∧ y = some b ∧ R a b := by
  cases h with
  | none => exact .inl ⟨rfl, rfl⟩
  | some hr => exact .inr ⟨_, _, rfl, rfl, hr⟩

section
variable {mark : Text} (hm : ∀ c ∈ mark, Text.isBlank c = false)
include hm

theorem after?_trailed {s t : Text} (h : Trailed s t) :
    Option.Rel Trailed (Text.after? mark s) (Text.after? mark t) := by
  induction mark generalizing s t with
  | nil => exact .some h
  | cons m mark ih =>
    rw [List.forall_mem_cons] at hm
    cases h with
    | last hw =>
      cases t with
      | nil => exact .none
      | cons c w =>
        rw [Text.after?_cons_blank hm.1 (hw.isBlank c (List.mem_cons_self ..))]
        exact .none
    | @line w s t hw h =>
      rw [Text.after?_cons_blank hm.1 (by decide)]
      cases w with
      | nil =>
        rw [List.nil_append, Text.after?_cons_blank hm.1 (by decide)]
        exact .none
      | cons c w =>
        rw [List.cons_append, Text.after?_cons_blank hm.1 (hw.isBlank c (List.mem_cons_self ..))]
        exact .none
    | char hc h =>
      rw [Text.after?, Text.after?]
      split
      · exact ih hm.2 h
      · exact .none

variable (hne : mark ≠ [])
include hne

/-- A mark does not begin inside blanks. -/
theorem cutMark?_blank_append {b : Text} (hb : ∀ c ∈ b, Text.isBlank c = true) (s : Text) :
    cutMark? mark (b ++ s) = (cutMark? mark s).map fun cut => (b ++ cut.1, cut.2) := by
  obtain ⟨m, mark, rfl⟩ := List.exists_cons_of_ne_nil hne
  rw [List.forall_mem_cons] at hm
  induction b with
  | nil => simp
  | cons c b ih =>
    rw [List.forall_mem_cons] at hb
    rw [List.cons_append, cutMark?, Text.after?_cons_blank hm.1 hb.1, ih hb.2]
    cases cutMark? (m :: mark) s <;> rfl

theorem cutMark?_trailed {s t : Text} (h : Trailed s t) :
    Option.Rel TrailedCut (cutMark? mark s) (cutMark? mark t) := by
  induction h with
  | @last w hw =>
    have hcut := cutMark?_blank_append hm hne hw.isBlank []
    rw [List.append_nil] at hcut
    rw [hcut]
    exact .none
  | @line w s t hw hst ih =>
    have hb : ∀ c ∈ w ++ ['\n'], Text.isBlank c = true := by
      intro c hc
      rcases List.mem_append.mp hc with hc | hc
      · exact hw.isBlank c hc
      · rw [List.mem_singleton.mp hc]; decide
    have hs : cutMark? mark ('\n' :: s) = (cutMark? mark s).map fun cut => ('\n' :: cut.1, cut.2) :=
      cutMark?_blank_append hm hne (b := ['\n']) (by decide) s
    have ht : cutMark? mark (w ++ '\n' :: t) = (cutMark? mark t).map fun cut => (w ++ '\n' :: cut.1, cut.2) := by
      simpa using cutMark?_blank_append hm hne hb t
    rw [hs, ht]
    exact rel_map (fun a b hr => ⟨.line hw hr.1, hr.2⟩) ih
  | @char c s t hc hst ih =>
    unfold cutMark?
    rcases rel_cases (after?_trailed hm (.char hc hst)) with ⟨hs, ht⟩ | ⟨a, b, hs, ht, hr⟩
    · rw [hs, ht]
      exact rel_map (fun a b hr => ⟨.char hc hr.1, hr.2⟩) ih
    · rw [hs, ht]
      exact .some ⟨.refl [], hr⟩

end

theorem nearest?_trailed {s t : Text} (h : Trailed s t) : Option.Rel TrailedCut (nearest? s) (nearest? t) := by
  have ho : Option.Rel TrailedCut (cutMark? opening s) (cutMark? opening t) :=
    cutMark?_trailed (by decide) (by decide) h
  unfold nearest?
  rcases rel_cases ho with ⟨hs, ht⟩ | ⟨a, b, hs, ht, hr⟩
  · rw [hs, ht]
    exact .none
  · rw [hs, ht]
    exact cutMark?_trailed (by decide) (by decide) hr.2

/-! ## Borders -/

theorem isBorder_of_isBlank {c : Char} (h : Text.isBlank c = true) : isBorder c = true := by
  simp [isBorder, h]

theorem isBorder_trailed {s t : Text} (h : Trailed s t) :
    (∀ c ∈ s, isBorder c = true) ↔ ∀ c ∈ t, isBorder c = true := by
  induction h with
  | last hw => simpa using fun c hc => isBorder_of_isBlank (hw.isBlank c hc)
  | line hw _ ih =>
    have hn : isBorder '\n' = true := by decide
    have hb := fun c hc => isBorder_of_isBlank (hw.isBlank c hc)
    simp only [List.forall_mem_append, List.forall_mem_cons, hn, true_and, ih]
    exact ⟨fun ht => ⟨hb, ht⟩, fun ht => ht.2⟩
  | char _ _ ih => simp only [List.forall_mem_cons, ih]

theorem dropBorder_trailed {s t : Text} (h : Trailed s t) :
    Trailed (s.dropWhile isBorder) (t.dropWhile isBorder) := by
  induction h with
  | last hw =>
    rw [List.dropWhile_eq_nil_iff.mpr fun c hc => isBorder_of_isBlank (hw.isBlank c hc)]
    exact .refl []
  | line hw _ ih =>
    rw [List.dropWhile_append_of_pos fun c hc => isBorder_of_isBlank (hw.isBlank c hc),
      List.dropWhile_cons_of_pos (by decide), List.dropWhile_cons_of_pos (by decide)]
    exact ih
  | @char c s t hc hst ih =>
    by_cases hb : isBorder c = true
    · rw [List.dropWhile_cons_of_pos hb, List.dropWhile_cons_of_pos hb]
      exact ih
    · rw [List.dropWhile_cons_of_neg hb, List.dropWhile_cons_of_neg hb]
      exact .char hc hst

theorem trimEnd_append_of_not_border (a : Text) {s : Text} (h : ¬ ∀ c ∈ s, isBorder c = true) :
    Text.trimEnd isBorder (a ++ s) = a ++ Text.trimEnd isBorder s := by
  have hne : (s.reverse.dropWhile isBorder).isEmpty = false := by
    rw [List.isEmpty_eq_false_iff]
    intro hnil
    exact h (by simpa using hnil)
  unfold Text.trimEnd
  rw [List.reverse_append, List.dropWhile_append, hne]
  simp

theorem trimEnd_trailed {s t : Text} (h : Trailed s t) :
    Trailed (Text.trimEnd isBorder s) (Text.trimEnd isBorder t) := by
  have hempty : ∀ {s : Text}, (∀ c ∈ s, isBorder c = true) → Text.trimEnd isBorder s = [] :=
    List.rdropWhile_eq_nil_iff.mpr
  induction h with
  | last hw =>
    rw [hempty fun c hc => isBorder_of_isBlank (hw.isBlank c hc)]
    exact .refl []
  | @line w s t hw hst ih =>
    by_cases hb : ∀ c ∈ '\n' :: s, isBorder c = true
    · rw [hempty hb, hempty ((isBorder_trailed (.line hw hst)).mp hb)]
      exact .refl []
    · have hs : ¬ ∀ c ∈ s, isBorder c = true := fun hs => hb (List.forall_mem_cons.mpr ⟨by decide, hs⟩)
      have ht := mt (isBorder_trailed hst).mpr hs
      have hs' := trimEnd_append_of_not_border ['\n'] hs
      have ht' := trimEnd_append_of_not_border (w ++ ['\n']) ht
      rw [List.append_assoc, List.append_assoc] at ht'
      exact hs' ▸ ht' ▸ .line hw ih
  | @char c s t hc hst ih =>
    by_cases hb : ∀ c ∈ s, isBorder c = true
    · have hs : Text.trimEnd isBorder ([c] ++ s) = Text.trimEnd isBorder [c] := Text.trimEnd_append hb
      have ht : Text.trimEnd isBorder ([c] ++ t) = Text.trimEnd isBorder [c] :=
        Text.trimEnd_append ((isBorder_trailed hst).mp hb)
      rw [List.singleton_append] at hs ht
      rw [hs, ht]
      exact .refl _
    · have hs := trimEnd_append_of_not_border [c] hb
      have ht := trimEnd_append_of_not_border [c] (mt (isBorder_trailed hst).mpr hb)
      rw [List.singleton_append] at hs ht
      rw [hs, ht]
      exact .char hc ih

/-- **One comment** of a text with blanks at the ends of lines is that of the text, with such blanks. -/
theorem next?_trailed {s t : Text} (h : Trailed s t) : Option.Rel TrailedCut (next? s) (next? t) := by
  rcases rel_cases (nearest?_trailed h) with ⟨hs, ht⟩ | ⟨a, b, hs, ht, hi, hr⟩
  · rw [next?_eq_none hs, next?_eq_none ht]
    exact .none
  · by_cases hb : ∀ c ∈ a.1, isBorder c = true
    · rw [next?_of_border hs hb, next?_of_border ht ((isBorder_trailed hi).mp hb)]
      have hc : Option.Rel TrailedCut (cutMark? closing a.2) (cutMark? closing b.2) :=
        cutMark?_trailed (by decide) (by decide) hr
      rcases rel_cases hc with ⟨hs', ht'⟩ | ⟨a', b', hs', ht', hi', hr'⟩
      · rw [hs', ht']
        exact .some ⟨.refl [], hr⟩
      · rw [hs', ht']
        exact .some ⟨trimEnd_trailed (.char (by decide) hi'), hr'⟩
    · rw [next?_of_inside hs hb, next?_of_inside ht (mt (isBorder_trailed hi).mpr hb)]
      exact .some ⟨trimEnd_trailed (dropBorder_trailed hi), hr⟩

theorem bodies_trailed {s t : Text} (h : Trailed s t) : List.Forall₂ Trailed (bodies s) (bodies t) := by
  fun_induction bodies s generalizing t with
  | case1 s hs =>
    obtain ⟨-, ht⟩ | ⟨a, b, hs', -, -⟩ := rel_cases (next?_trailed h)
    · rw [bodies_of_none ht]
      exact .nil
    · rw [hs] at hs'; cases hs'
  | case2 s body rest hs ih =>
    obtain ⟨hs', -⟩ | ⟨a, b, hs', ht, hb, hr⟩ := rel_cases (next?_trailed h)
    · rw [hs] at hs'; cases hs'
    · rw [hs] at hs'
      cases hs'
      rw [bodies_of_some ht]
      exact .cons hb (ih hr)

end Comment

/-! ## Source texts -/

theorem Block.patterns_of_trailed (s : Settings) {b b' : Text} (h : Text.Trailed b b') :
    patterns s b = patterns s b' := by
  refine patterns_alike s (h.lines.imp ?_)
  rintro l _ ⟨w, hw, rfl⟩
  exact Field.alike_append_blank hw.isBlank l

namespace Source

theorem partialsOf_trailed (s : Settings) {bs bs' : List Text} (h : List.Forall₂ Text.Trailed bs bs') :
    partialsOf s bs = partialsOf s bs' := by
  induction h with
  | nil => rfl
  | cons hb _ ih => rw [partialsOf, partialsOf, Block.patterns_of_trailed s hb, ih]

/-- **Blanks at the ends of lines are not read.** Patterns, error and notices are the same with them, and so
with a carriage return before each line break. -/
theorem patterns_trailed (s : Settings) (source : Text) :
    (∀ source', Text.Trailed source source' → patterns s source' = patterns s source) ∧
      patterns s (Text.withReturns source) = patterns s source := by
  have h : ∀ source', Text.Trailed source source' → patterns s source' = patterns s source := by
    intro source' ht
    rw [patterns, patterns, partials, partials, partialsOf_trailed s (Comment.bodies_trailed ht)]
  exact ⟨h, h _ (Text.trailed_withReturns source)⟩

def nameAndTodo : Text :=
  ['/', '*', ' ', '@', 'p', 'a', 't', 't', 'e', 'r', 'n', ' ', 'a', '\n', '@', 't', 'o', 'd', 'o', ' ', 'b', '*',
    '/']

def nameAndTodoTrailed : Text :=
  ['/', '*', ' ', '@', 'p', 'a', 't', 't', 'e', 'r', 'n', ' ', 'a', '\u00a0', '\r', '\n', '@', 't', 'o', 'd', 'o',
    ' ', 'b', '*', '/', '\t']

theorem patterns_trailed_todo :
    Text.Trailed nameAndTodo nameAndTodoTrailed ∧
      patterns {} nameAndTodoTrailed = patterns {} nameAndTodo ∧
      (patterns {} nameAndTodoTrailed).outcome.toOption =
        some [{ name := ['a'], metadata := .ofList [(['t', 'o', 'd', 'o'], .many [['b']])] }] := by
  have ht : Text.Trailed nameAndTodo nameAndTodoTrailed := by
    unfold nameAndTodo nameAndTodoTrailed
    repeat refine .char (by decide) ?_
    refine .line (w := ['\u00a0', '\r']) (by decide) ?_
    repeat refine .char (by decide) ?_
    exact .last (by decide)
  have hp := (patterns_trailed {} nameAndTodo).1 nameAndTodoTrailed ht
  refine ⟨ht, hp, ?_⟩
  rw [hp]
  decide +kernel

end Source

end PatternBook
