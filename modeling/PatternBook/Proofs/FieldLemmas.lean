import PatternBook.Field.Value
import PatternBook.Proofs.TextLemmas

/-!
# Laws of field lines

No tag begins with decoration, so a tag is looked for behind the whole run of it, and a line begins the
same field with more decoration in front. No tag is the beginning of another, so a line that begins with
a tag begins that field only. Nothing is taken off lines of which the first is neither blank nor indented.
-/

namespace PatternBook

namespace Tag

section
variable {c : Char} (t : Text)

theorem here?_before (before : Option Char) (s : Text) : here? (c :: t) before s = here? (c :: t) none s := by
  have hl : ((c :: t).getLast?.or before) = (c :: t).getLast?.or none := by
    rw [List.getLast?_eq_some_getLast (List.cons_ne_nil c t)]; rfl
  unfold here?
  rw [hl]

theorem here?_decoration (hc : isDecoration c = false) {d : Char} (hd : isDecoration d = true)
    (before : Option Char) (s : Text) : here? (c :: t) before (d :: s) = none := by
  have hne : c ≠ d := by rintro rfl; rw [hc] at hd; cases hd
  simp [here?, Text.after?, hne]

theorem afterFrom?_eq (hc : isDecoration c = false) : ∀ (before : Option Char) (s : Text),
    afterFrom? (c :: t) before s = here? (c :: t) none (s.dropWhile isDecoration)
  | before, [] => here?_before t before []
  | before, d :: s => by
    rw [afterFrom?]
    by_cases hd : isDecoration d = true
    · rw [if_pos hd, afterFrom?_eq hc (some d) s, here?_decoration t hc hd, List.dropWhile_cons_of_pos hd]
      cases here? (c :: t) none (s.dropWhile isDecoration) <;> rfl
    · rw [if_neg hd, List.dropWhile_cons_of_neg hd]
      exact here?_before t before (d :: s)

theorem after?_eq_here? (hc : isDecoration c = false) (s : Text) :
    after? (c :: t) s = here? (c :: t) none (s.dropWhile isDecoration) :=
  afterFrom?_eq t hc none s

end

end Tag

namespace Field

/-! ## Lines that begin a field -/

theorem after?_tag (f : Field) (s : Text) :
    Tag.after? f.tag s = Tag.here? f.tag none (s.dropWhile Tag.isDecoration) := by
  cases f <;> exact Tag.after?_eq_here? _ (by decide) s

theorem after?_tag_decoration (f : Field) {d : Text} (hd : ∀ c ∈ d, Tag.isDecoration c = true) (s : Text) :
    Tag.after? f.tag (d ++ s) = Tag.after? f.tag s := by
  rw [after?_tag, after?_tag, List.dropWhile_append_of_pos hd]

theorem ofLine?_decoration {d : Text} (hd : ∀ c ∈ d, Tag.isDecoration c = true) (s : Text) :
    ofLine? (d ++ s) = ofLine? s := by
  unfold ofLine? begins
  simp only [after?_tag_decoration _ hd]

theorem dropWhile_tag (f : Field) (rest : Text) :
    (f.tag ++ rest).dropWhile Tag.isDecoration = f.tag ++ rest := by
  cases f <;> exact List.dropWhile_cons_of_neg (by decide)

theorem isWord_tag (f : Field) : f.tag.getLast?.any Text.isWord = true := by
  cases f <;> decide

theorem tag_ne (f : Field) : f.tag ≠ [] := by
  cases f <;> exact List.cons_ne_nil _ _

theorem tag_trimmed (f : Field) : Text.Trimmed Text.isBlank f.tag := by
  cases f <;> decide

/-- No tag is the beginning of another. -/
theorem tag_inj {f g : Field} {s t : Text} (h : f.tag ++ s = g.tag ++ t) : f = g := by
  cases f <;> cases g <;> first | rfl | simp [tag] at h

section
variable (f : Field) {rest : Text} (h : ∀ c ∈ rest.head?, Text.isWord c = false)
include h

theorem after?_tag_append : Tag.after? f.tag (f.tag ++ rest) = some (rest.dropWhile Text.isIndent) := by
  have hr : rest.head?.any Text.isWord = false := by
    cases hh : rest.head? with
    | none => rfl
    | some c => simpa using h c hh
  rw [after?_tag, dropWhile_tag, Tag.here?, Text.after?_append]
  simp [Text.wordBoundary, isWord_tag, hr]

theorem begins_tag_append (g : Field) : g.begins (f.tag ++ rest) = decide (g = f) := by
  by_cases hg : g = f
  · rw [hg, begins, after?_tag_append f h]; simp
  · have ha : Text.after? g.tag (f.tag ++ rest) = none := by
      rw [Text.after?_eq_none_iff]
      intro t ht
      exact hg (tag_inj ht.symm)
    rw [begins, after?_tag, dropWhile_tag, Tag.here?, ha]
    simp [hg]

theorem ofLine?_tag_append : ofLine? (f.tag ++ rest) = some f := by
  unfold ofLine?
  simp only [begins_tag_append f h]
  cases f <;> rfl

theorem single_tag_append {d : Text} (hd : ∀ c ∈ d, Tag.isDecoration c = true) :
    single f.tag (d ++ (f.tag ++ rest)) = Text.strip rest := by
  rw [single, after?_tag_decoration f hd, after?_tag_append f h]
  exact Text.strip_dropWhile_isIndent rest

end

/-- A line begins a field if the tag stands behind all of its decoration, and no word goes on behind the tag. -/
theorem begins_iff {f : Field} {line : Text} : f.begins line = true ↔
    ∃ rest, line.dropWhile Tag.isDecoration = f.tag ++ rest ∧ ∀ c ∈ rest.head?, Text.isWord c = false := by
  constructor
  · intro h
    unfold begins at h
    rw [after?_tag, Tag.here?] at h
    cases ha : Text.after? f.tag (line.dropWhile Tag.isDecoration) with
    | none => simp [ha] at h
    | some rest =>
      refine ⟨rest, Text.after?_eq_some_iff.mp ha, fun c hc => ?_⟩
      rw [Option.mem_def] at hc
      simpa [ha, Text.wordBoundary, isWord_tag, hc] using h
  · rintro ⟨rest, hl, hw⟩
    have hb := begins_tag_append f hw f
    unfold begins at hb ⊢
    rw [after?_tag, dropWhile_tag] at hb
    rw [after?_tag, hl, hb]
    simp

theorem begins_of_ofLine? {f : Field} {line : Text} (h : ofLine? line = some f) : f.begins line = true := by
  have hp := List.find?_some h
  exact hp

theorem ofLine?_of_begins {f : Field} {line : Text} (h : f.begins line = true) : ofLine? line = some f := by
  obtain ⟨rest, hl, hw⟩ := begins_iff.mp h
  rw [← List.takeWhile_append_dropWhile (p := Tag.isDecoration) (l := line), hl,
    ofLine?_decoration fun c hc => List.mem_takeWhile_imp hc, ofLine?_tag_append f hw]

theorem strip_tag_append (f : Field) {s : Text} (h : ∀ c ∈ s.head?, Text.isIndent c = false) :
    Tag.strip (some f.tag) (f.tag ++ ' ' :: s) = s := by
  have hw : ∀ c ∈ (' ' :: s).head?, Text.isWord c = false := by simp +decide
  have ha := after?_tag_append f hw
  rw [List.dropWhile_cons_of_pos (by decide), Text.dropWhile_of_head h] at ha
  simp [Tag.strip, f.tag_ne, ha]

/-! ## Keys and values -/

theorem keyValue?_append {key gap : Text} (hne : key ≠ []) (hk : ∀ c ∈ key, Text.isBlank c = false)
    (hgne : gap ≠ []) (hg : ∀ c ∈ gap, Text.isBlank c = true) (rest : Text) :
    keyValue? (key ++ (gap ++ rest)) =
      some (key, Text.strip (dropLoneDash (rest.dropWhile Text.isBlank))) := by
  have hin : ∀ c ∈ key, (!Text.isBlank c) = true := fun c hc => by simp [hk c hc]
  have hout : ∀ c ∈ (gap ++ rest).head?, (!Text.isBlank c) = false := by
    obtain ⟨b, gap, rfl⟩ := List.exists_cons_of_ne_nil hgne
    simpa using hg b (List.mem_cons_self ..)
  unfold keyValue?
  simp only [Text.takeWhile_run hin hout, Text.dropWhile_run hin hout]
  rw [List.dropWhile_append_of_pos hg]
  simp [hne, hgne]

theorem dropLoneDash_append {gap : Text} (hne : gap ≠ []) (hg : ∀ c ∈ gap, Text.isBlank c = true) (rest : Text) :
    dropLoneDash ('-' :: (gap ++ rest)) = rest.dropWhile Text.isBlank := by
  obtain ⟨b, gap, rfl⟩ := List.exists_cons_of_ne_nil hne
  rw [List.forall_mem_cons] at hg
  rw [List.cons_append, dropLoneDash, if_pos hg.1, List.dropWhile_append_of_pos hg.2]

/-! ## Folded values -/

theorem paragraphsFrom_cons {part : Text} (h : part ≠ []) (paragraph parts : List Text) :
    paragraphsFrom paragraph (part :: parts) = paragraphsFrom (paragraph ++ [part]) parts := by
  rw [paragraphsFrom, if_neg (by simpa using h)]

/-- Texts with an empty line before each of them are one paragraph each. -/
theorem paragraphsFrom_separated {x : Text} : ∀ {ds : List Text}, (∀ d ∈ ds, d ≠ []) →
    paragraphsFrom [x] (ds.flatMap fun d => [[], d]) = x :: ds
  | [], _ => by simp [paragraphsFrom, flush, Text.join]
  | d :: ds, h => by
    have hd : d ≠ [] := h d (by simp)
    have ih := paragraphsFrom_separated (x := d) fun e he => h e (List.mem_cons_of_mem d he)
    have hf : flush [x] = [x] := by simp [flush, Text.join]
    show paragraphsFrom [x] ([] :: d :: ds.flatMap fun d => [[], d]) = x :: d :: ds
    rw [paragraphsFrom, if_pos List.isEmpty_nil, hf, paragraphsFrom_cons hd, List.nil_append, ih]
    rfl

theorem paragraphs_separated {x : Text} (hx : x ≠ []) {ds : List Text} (h : ∀ d ∈ ds, d ≠ []) :
    paragraphs (x :: ds.flatMap fun d => [[], d]) = x :: ds := by
  rw [paragraphs, paragraphsFrom_cons hx]
  exact paragraphsFrom_separated h

end Field

/-! ## Indentation -/

namespace Indent

theorem least_nil (ts : List Text) : least [] ts = [] := by
  unfold least
  induction ts with
  | nil => rfl
  | cons t ts ih => simpa [Text.le] using ih

theorem shared_of_first {l : Text} (hb : Text.isBlankText l = false)
    (hi : ∀ c ∈ l.head?, Text.isIndent c = false) (ls : List Text) : shared (l :: ls) = [] := by
  have ho : ofLine l = [] := by
    cases l with
    | nil => rfl
    | cons c l => exact List.takeWhile_cons_of_neg (by simp [hi c rfl])
  unfold shared indents
  rw [List.filter_cons_of_pos (by simp [hb]), List.map_cons, ho]
  simp [least_nil, Text.commonStart]

theorem strip_unlines_of_first {l : Text} {ls : List Text} (hn : ∀ line ∈ l :: ls, '\n' ∉ line)
    (hb : Text.isBlankText l = false) (hi : ∀ c ∈ l.head?, Text.isIndent c = false) :
    strip (Text.unlines (l :: ls)) = Text.unlines (l :: ls) := by
  rw [strip, Text.lines_unlines (List.cons_ne_nil l ls) hn, shared_of_first hb hi]
  rfl

end Indent

end PatternBook
