import PatternBook.Proofs.FoldedLemmas

/-!
# Folded values lose nothing

A folded value reaches from its tag to the next field line. Its paragraphs are the longest runs of lines that are
not empty, where the first line is what stands behind the tag. It makes no difference that the tag is taken off only
when the lines are already folded.
-/

namespace PatternBook.Field

/-! ## Runs -/

/-- The runs of parts that are not empty. Each is as long as it can be: an empty part follows it, or none at all. -/
inductive Runs : List Text → List (List Text) → Prop
  | nil : Runs [] []
  | gap {parts : List Text} {runs : List (List Text)} : Runs parts runs → Runs ([] :: parts) runs
  | run {run rest : List Text} {runs : List (List Text)} : run ≠ [] → (∀ part ∈ run, part ≠ []) →
      (∀ part ∈ rest.head?, part = []) → Runs rest runs → Runs (run ++ rest) (run :: runs)

theorem run_ne_gap {run rest parts : List Text} (hne : run ≠ []) (h : ∀ part ∈ run, part ≠ []) :
    run ++ rest ≠ [] :: parts := by
  obtain ⟨part, run, rfl⟩ := List.exists_cons_of_ne_nil hne
  intro he
  exact h part (List.mem_cons_self ..) (List.cons.inj he).1

theorem Runs.unique {parts : List Text} {runs : List (List Text)} (h : Runs parts runs) :
    ∀ {parts' : List Text} {runs' : List (List Text)}, Runs parts' runs' → parts' = parts → runs' = runs := by
  induction h with
  | nil =>
    intro parts' runs' h' he
    cases h' with
    | nil => rfl
    | gap _ => cases he
    | run hne _ _ _ => exact absurd (List.append_eq_nil_iff.mp he).1 hne
  | gap _ ih =>
    intro parts' runs' h' he
    cases h' with
    | nil => cases he
    | gap h' => exact ih h' (List.cons.inj he).2
    | run hne hrun _ _ => exact absurd he (run_ne_gap hne hrun)
  | run hne hrun hrest _ ih =>
    intro parts' runs' h' he
    cases h' with
    | nil => exact absurd (List.append_eq_nil_iff.mp he.symm).1 hne
    | gap _ => exact absurd he.symm (run_ne_gap hne hrun)
    | run _ hrun' hrest' h' =>
      -- both runs end at the first part that is empty
      obtain ⟨rfl, htail⟩ := Text.run_inj (p := fun part => !part.isEmpty) (by simpa using hrun')
        (by simpa using hrest') (by simpa using hrun) (by simpa using hrest) he
      rw [ih h' htail]

theorem Runs.single {part : Text} {rest : List Text} {runs : List (List Text)} (hp : part ≠ [])
    (hrest : ∀ part ∈ rest.head?, part = []) (h : Runs rest runs) : Runs (part :: rest) ([part] :: runs) :=
  .run (List.cons_ne_nil part []) (by simpa using hp) hrest h

theorem exists_runs : ∀ parts : List Text, ∃ runs, Runs parts runs
  | [] => ⟨[], .nil⟩
  | part :: parts => by
    obtain ⟨runs, h⟩ := exists_runs parts
    by_cases hp : part = []
    · subst hp
      exact ⟨runs, h.gap⟩
    · cases h with
      | nil => exact ⟨[[part]], .single hp (by simp) .nil⟩
      | gap h => exact ⟨[part] :: runs, .single hp (by simp) h.gap⟩
      | @run run rest runs _ hrun hrest h =>
        -- the part belongs to the run that follows it
        have hall : ∀ p ∈ part :: run, p ≠ [] := List.forall_mem_cons.mpr ⟨hp, hrun⟩
        exact ⟨(part :: run) :: runs, .run (List.cons_ne_nil part run) hall hrest h⟩

/-! ## Paragraphs -/

theorem paragraphsFrom_append {run : List Text} (h : ∀ part ∈ run, part ≠ []) (taken rest : List Text) :
    paragraphsFrom taken (run ++ rest) = paragraphsFrom (taken ++ run) rest := by
  induction run generalizing taken with
  | nil => simp
  | cons part run ih =>
    rw [List.forall_mem_cons] at h
    rw [List.cons_append, paragraphsFrom_cons h.1, ih h.2]
    simp

theorem paragraphsFrom_of_gap {rest : List Text} (h : ∀ part ∈ rest.head?, part = []) (run : List Text) :
    paragraphsFrom run rest = flush run ++ paragraphs rest := by
  cases rest with
  | nil => simp [paragraphsFrom, paragraphs, flush]
  | cons part rest =>
    obtain rfl := h part rfl
    rfl

/-- **Paragraphs** are the runs, with a space between two parts. -/
theorem paragraphs_of_runs {parts : List Text} {runs : List (List Text)} (h : Runs parts runs) :
    paragraphs parts = runs.map (Text.join [' ']) := by
  induction h with
  | nil => rfl
  | gap _ ih => exact ih
  | @run run rest runs hne hrun hrest _ ih =>
    have hflush : flush run = [Text.join [' '] run] := by simp [flush, hne]
    rw [paragraphs, paragraphsFrom_append hrun, List.nil_append, paragraphsFrom_of_gap hrest, hflush, ih]
    rfl

/-! ## The reader -/

theorem unlines_paragraphs_singleton (value : Text) : Text.unlines (paragraphs [value]) = value := by
  by_cases hv : value = []
  · rw [hv]
    rfl
  · simp [paragraphs, paragraphsFrom, flush, hv, Text.unlines, Text.join]

/-- **A folded value loses nothing.** Its reader passes the lines up to the next field line, and the value is made
of the longest runs of the text behind the tag and of the lines below it. So it may as well be folded when the tag
is off, and a value on one line is what stands on it. -/
theorem readFolded_runs {f : Field} {c : Cursor} {head : Text} {ls : List Text} (ha : c.ahead = head :: ls)
    (hb : f.begins head = true) (hn : ∀ line ∈ head :: ls, '\n' ∉ line) :
    ∃ value d e runs, readFolded (some f.tag) isFieldLine c = .ok (value, d) ∧
      d.passed = c.passed ++ head :: ls.takeWhile isInside ∧ d.ahead = ls.dropWhile isInside ∧
      readSingle f.tag c = .ok (single f.tag head, e) ∧
      (∀ rs, Runs (single f.tag head :: parts (ls.takeWhile isInside)) rs ↔ rs = runs) ∧
      value = Text.unlines (runs.map (Text.join [' '])) ∧
      value = Text.unlines (paragraphs (single f.tag head :: parts (ls.takeWhile isInside))) ∧
      (ls.takeWhile isInside = [] → value = single f.tag head) := by
  obtain ⟨d, hread, hahead, hpassed⟩ := readFolded_eq (some f.tag) ha
  obtain ⟨e, hsingle, -⟩ := readSingle_eq f.tag ha
  obtain ⟨runs, hruns⟩ := exists_runs (single f.tag head :: parts (ls.takeWhile isInside))
  have hn' : ∀ line ∈ head :: ls.takeWhile isInside, '\n' ∉ line := by
    rw [List.forall_mem_cons] at hn ⊢
    exact ⟨hn.1, fun line hl => hn.2 line ((List.takeWhile_prefix _).subset hl)⟩
  have hvalue := folded_eq (ofLine?_of_begins hb) hn'
  refine ⟨_, d, e, runs, hread, hpassed, hahead, hsingle, fun rs => ⟨fun h => hruns.unique h rfl, ?_⟩, ?_, hvalue,
    ?_⟩
  · rintro rfl
    exact hruns
  · rw [hvalue, paragraphs_of_runs hruns]
  · intro hnil
    rw [hvalue, hnil]
    exact unlines_paragraphs_singleton _

/-- The value begins with a star and goes on behind an empty line, and a doubled border leaves one star. -/
def bordered : List Text :=
  [" ** @todo\u00a0* a ".toList, " *".toList, "\t* b".toList, " ** c".toList, "@meta d".toList]

theorem readFolded_runs_bordered : ∃ d,
    readFolded (some todo.tag) isFieldLine (Cursor.ofLines bordered) = .ok ("* a\nb * c".toList, d) ∧
      d.ahead = ["@meta d".toList] := by
  obtain ⟨value, d, e, runs, hread, -, hahead, -, -, -, hvalue, -⟩ :=
    readFolded_runs (f := todo) (Cursor.ahead_ofLines bordered) (by decide) (by decide)
  have hv : value = "* a\nb * c".toList := by
    rw [hvalue]
    decide
  rw [hv] at hread
  exact ⟨d, hread, hahead⟩

end PatternBook.Field
