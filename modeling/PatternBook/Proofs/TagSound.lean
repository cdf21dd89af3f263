import PatternBook.Proofs.FieldLemmas

/-!
# Tagged lines

The scan for a tag tries every run of decoration in front of it, so it finds the tag if the tag stands behind any
run. The tags of the fields begin with no decoration, so only the whole run of it will do, and no tag is the
beginning of another, so a line begins one field at most. Neither the order in which the fields are tried nor more
decoration in front of the line makes a difference.
-/

namespace PatternBook

namespace Tag

/-- The tag stands behind a run of decoration, and a word begins or ends right behind it. -/
def Stands (tag : Text) (before : Option Char) (s : Text) : Prop :=
  ∃ run rest, s = run ++ (tag ++ rest) ∧ (∀ c ∈ run, isDecoration c = true) ∧
    Text.wordBoundary ((run ++ tag).getLast?.or before) rest.head? = true

theorem here?_isSome_iff (tag : Text) (before : Option Char) (s : Text) : (here? tag before s).isSome = true ↔
    ∃ rest, s = tag ++ rest ∧ Text.wordBoundary (tag.getLast?.or before) rest.head? = true := by
  unfold here?
  cases ha : Text.after? tag s with
  | none => simp [Text.after?_eq_none_iff.mp ha]
  | some rest =>
    obtain rfl := Text.after?_eq_some_iff.mp ha
    simp

theorem getLast?_cons_or (c : Char) (s : Text) (before : Option Char) :
    (c :: s).getLast?.or before = s.getLast?.or (some c) := by
  rw [List.getLast?_cons]
  cases s.getLast? <;> rfl

theorem stands_nil_iff (tag : Text) (before : Option Char) :
    Stands tag before [] ↔ (here? tag before []).isSome = true := by
  rw [here?_isSome_iff]
  constructor
  · rintro ⟨run, rest, hs, -, hw⟩
    obtain ⟨rfl, ht⟩ := List.append_eq_nil_iff.mp hs.symm
    exact ⟨rest, ht.symm, hw⟩
  · rintro ⟨rest, hs, hw⟩
    exact ⟨[], rest, hs, by simp, hw⟩

theorem stands_cons_iff (tag : Text) (before : Option Char) (c : Char) (s : Text) : Stands tag before (c :: s) ↔
    isDecoration c = true ∧ Stands tag (some c) s ∨ (here? tag before (c :: s)).isSome = true := by
  rw [here?_isSome_iff]
  constructor
  · rintro ⟨run, rest, hs, hd, hw⟩
    cases run with
    | nil => exact .inr ⟨rest, hs, hw⟩
    | cons d run =>
      obtain ⟨rfl, rfl⟩ := List.cons.inj hs
      rw [List.cons_append, getLast?_cons_or] at hw
      exact .inl ⟨hd c (by simp), run, rest, rfl, fun x hx => hd x (by simp [hx]), hw⟩
  · rintro (⟨hc, run, rest, rfl, hd, hw⟩ | ⟨rest, hs, hw⟩)
    · refine ⟨c :: run, rest, rfl, by simpa [hc] using hd, ?_⟩
      rwa [List.cons_append, getLast?_cons_or]
    · exact ⟨[], rest, hs, by simp, hw⟩

/-- The scan finds the tag behind whatever run there is: if the longest does not do, it tries the shorter ones. -/
theorem afterFrom?_isSome_iff (tag : Text) : ∀ (before : Option Char) (s : Text),
    (afterFrom? tag before s).isSome = true ↔ Stands tag before s
  | before, [] => (stands_nil_iff tag before).symm
  | before, c :: s => by
    rw [stands_cons_iff, ← afterFrom?_isSome_iff tag (some c) s, afterFrom?]
    by_cases hc : isDecoration c = true
    · cases afterFrom? tag (some c) s <;> simp [hc]
    · simp [hc]

end Tag

namespace Field

theorem wordBoundary_tag (f : Field) (run rest : Text) (before : Option Char) :
    Text.wordBoundary ((run ++ f.tag).getLast?.or before) rest.head? = true ↔
      ∀ c ∈ rest.head?, Text.isWord c = false := by
  have hl : ((run ++ f.tag).getLast?.or before).any Text.isWord = true := by
    rw [List.getLast?_append_of_ne_nil run f.tag_ne, ← f.isWord_tag]
    cases f <;> rfl
  unfold Text.wordBoundary
  rw [hl]
  cases rest.head? <;> simp

theorem begins_iff_stands {f : Field} {line : Text} : f.begins line = true ↔
    ∃ run rest, line = run ++ (f.tag ++ rest) ∧ (∀ c ∈ run, Tag.isDecoration c = true) ∧
      ∀ c ∈ rest.head?, Text.isWord c = false := by
  unfold begins Tag.after?
  rw [Tag.afterFrom?_isSome_iff]
  unfold Tag.Stands
  simp only [wordBoundary_tag]

theorem find?_begins {order : List Field} (h : ∀ f, f ∈ order) (line : Text) :
    (order.find? fun f => f.begins line) = ofLine? line := by
  cases ho : order.find? fun f => f.begins line with
  | none =>
    symm
    apply List.find?_eq_none.mpr
    intro f _
    exact List.find?_eq_none.mp ho f (h f)
  | some f =>
    have hf := List.find?_some ho
    exact (ofLine?_of_begins hf).symm

/-- **A line begins at most one field**, in whatever order the fields are tried. It begins a field if the tag
stands behind any run of decoration, and then it stands behind all of it. -/
theorem begins_unambiguous (line : Text) :
    (∀ f g : Field, f.begins line = true → g.begins line = true → f = g) ∧
    (∀ order : List Field, (∀ f, f ∈ order) → (order.find? fun f => f.begins line) = ofLine? line) ∧
    (∀ f : Field, f.begins line = true ↔ ∃ rest, line.dropWhile Tag.isDecoration = f.tag ++ rest ∧
      ∀ c ∈ rest.head?, Text.isWord c = false) ∧
    (∀ f : Field, f.begins line = true ↔ ∃ run rest, line = run ++ (f.tag ++ rest) ∧
      (∀ c ∈ run, Tag.isDecoration c = true) ∧ ∀ c ∈ rest.head?, Text.isWord c = false) ∧
    ∀ d : Text, (∀ c ∈ d, Tag.isDecoration c = true) → ofLine? (d ++ line) = ofLine? line := by
  refine ⟨fun f g hf hg => ?_, fun order ho => find?_begins ho line, fun f => begins_iff,
    fun f => begins_iff_stands, fun d hd => ofLine?_decoration hd line⟩
  obtain ⟨rest, hrest, -⟩ := begins_iff.mp hf
  obtain ⟨rest', hrest', -⟩ := begins_iff.mp hg
  exact tag_inj (hrest.symm.trans hrest')

/-- The last letter of the tag has an accent, which is a character of its own and no word character. -/
def accented : Text := [' ', '*', '\u00a0'] ++ (parameter.tag ++ ['\u0301', ' ', 'x'])

theorem begins_unambiguous_accented :
    parameter.begins accented = true ∧ (∀ g : Field, g.begins accented = true → g = parameter) ∧
      (all.reverse.find? fun f => f.begins accented) = ofLine? accented ∧
      ofLine? (['\u3000', '*'] ++ accented) = ofLine? accented := by
  obtain ⟨hunique, horder, hlongest, -, hmore⟩ := begins_unambiguous accented
  have hp : parameter.begins accented = true :=
    (hlongest parameter).mpr ⟨['\u0301', ' ', 'x'], by decide +kernel, by decide +kernel⟩
  refine ⟨hp, fun g hg => hunique g parameter hg hp, horder _ ?_, hmore _ (by decide +kernel)⟩
  intro f
  cases f <;> decide

end Field

end PatternBook
