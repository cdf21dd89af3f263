import PatternBook.Proofs.AlikeSound
import PatternBook.Proofs.IndentLemmas
import PatternBook.Proofs.ScanSound

/-!
# Laws of folded values

The tag of a folded value is taken off when its lines are already put together. What is left is the same as if
the tag had been taken off its own line before: the paragraphs of the value that stands behind the tag and of
the lines below it. No paragraph is empty, and none has blanks at its ends.
-/

namespace PatternBook

namespace Field

/-! ## Paragraphs -/

theorem oneLine_join : ∀ {run : List Text}, run ≠ [] → (∀ part ∈ run, part ≠ [] ∧ OneLine part) →
    Text.join [' '] run ≠ [] ∧ OneLine (Text.join [' '] run)
  | [part], _, h => by simpa [Text.join] using h part (List.mem_singleton.mpr rfl)
  | part :: next :: run, _, h => by
    rw [List.forall_mem_cons] at h
    obtain ⟨hne, hn, ht⟩ := h.1
    obtain ⟨hne', hn', ht'⟩ := oneLine_join (List.cons_ne_nil next run) h.2
    have hj : Text.join [' '] (part :: next :: run) = part ++ [' '] ++ Text.join [' '] (next :: run) := by
      simp [Text.join]
    rw [hj]
    refine ⟨by simp [hne], ?_, Text.trimmed_append ht.1 hne ht'.2 hne'⟩
    simp [hn, hn']

theorem oneLine_paragraphsFrom (parts : List Text) : ∀ {run : List Text}, (∀ part ∈ run, part ≠ [] ∧ OneLine part) →
    (∀ part ∈ parts, OneLine part) → ∀ y ∈ paragraphsFrom run parts, y ≠ [] ∧ OneLine y := by
  have hflush : ∀ {run : List Text}, (∀ part ∈ run, part ≠ [] ∧ OneLine part) →
      ∀ y ∈ flush run, y ≠ [] ∧ OneLine y := by
    intro run hrun y hy
    unfold flush at hy
    by_cases hne : run = []
    · simp [hne] at hy
    · have hy' : y = Text.join [' '] run := by simpa [hne] using hy
      rw [hy']
      exact oneLine_join hne hrun
  induction parts with
  | nil => intro run hrun _; exact hflush hrun
  | cons part parts ih =>
    intro run hrun hparts
    rw [List.forall_mem_cons] at hparts
    unfold paragraphsFrom
    by_cases hp : part = []
    · rw [if_pos (by simp [hp])]
      intro y hy
      rcases List.mem_append.mp hy with hy | hy
      · exact hflush hrun y hy
      · exact ih (by simp) hparts.2 y hy
    · rw [if_neg (by simpa using hp)]
      refine ih ?_ hparts.2
      rw [List.forall_mem_append]
      exact ⟨hrun, by simpa using ⟨hp, hparts.1⟩⟩

theorem oneLine_paragraphs {parts : List Text} (h : ∀ part ∈ parts, OneLine part) :
    ∀ y ∈ paragraphs parts, y ≠ [] ∧ OneLine y :=
  oneLine_paragraphsFrom parts (by simp) h

/-- What stands in front of a run of parts stands in front of its paragraph. -/
theorem paragraphsFrom_front {a : Text} (parts : List Text) : ∀ {run run' : List Text}, run ≠ [] → run' ≠ [] →
    (∀ more, Text.join [' '] (run' ++ more) = a ++ Text.join [' '] (run ++ more)) →
      ∃ y ys, paragraphsFrom run parts = y :: ys ∧ paragraphsFrom run' parts = (a ++ y) :: ys := by
  induction parts with
  | nil =>
    intro run run' hne hne' h
    have hj := h []
    rw [List.append_nil, List.append_nil] at hj
    exact ⟨Text.join [' '] run, [], by simp [paragraphsFrom, flush, hne], by simp [paragraphsFrom, flush, hne', hj]⟩
  | cons part parts ih =>
    intro run run' hne hne' h
    by_cases hp : part = []
    · have hj := h []
      rw [List.append_nil, List.append_nil] at hj
      refine ⟨Text.join [' '] run, paragraphsFrom [] parts, ?_, ?_⟩
      · simp [paragraphsFrom, flush, hp, hne]
      · simp [paragraphsFrom, flush, hp, hne', hj]
    · rw [paragraphsFrom_cons hp, paragraphsFrom_cons hp]
      refine ih (by simp) (by simp) fun more => ?_
      rw [List.append_assoc, List.append_assoc]
      exact h ([part] ++ more)

/-- A part in front of others is followed by a space or a break, unless nothing follows. -/
theorem unlines_paragraphsFrom_singleton (parts : List Text) : ∃ sep : Text,
    (sep = [] ∧ paragraphs parts = [] ∨ (sep = ['\n'] ∨ sep = [' ']) ∧ paragraphs parts ≠ []) ∧
      ∀ a, Text.unlines (paragraphsFrom [a] parts) = a ++ (sep ++ Text.unlines (paragraphs parts)) := by
  cases parts with
  | nil =>
    exact ⟨[], .inl ⟨rfl, rfl⟩, fun a => by simp [paragraphsFrom, paragraphs, flush, Text.unlines, Text.join]⟩
  | cons part parts =>
    by_cases hp : part = []
    · subst hp
      have hone : ∀ a, paragraphsFrom [a] ([] :: parts) = a :: paragraphs parts := by
        intro a
        simp [paragraphsFrom, flush, paragraphs, Text.join]
      have hrest : paragraphs ([] :: parts) = paragraphs parts := rfl
      rw [hrest]
      cases hps : paragraphs parts with
      | nil => exact ⟨[], .inl ⟨rfl, rfl⟩, fun a => by rw [hone, hps]; simp [Text.unlines, Text.join]⟩
      | cons q qs =>
        exact ⟨['\n'], .inr ⟨.inl rfl, by simp⟩, fun a => by rw [hone, hps, Text.unlines_cons_cons]; rfl⟩
    · have hfront : ∀ a more, Text.join [' '] ([a, part] ++ more) =
          (a ++ [' ']) ++ Text.join [' '] ([part] ++ more) := by
        intro a more
        simp [Text.join]
      have hpart : paragraphs (part :: parts) = paragraphsFrom [part] parts := by
        rw [paragraphs, paragraphsFrom_cons hp, List.nil_append]
      refine ⟨[' '], .inr ⟨.inr rfl, ?_⟩, fun a => ?_⟩
      · obtain ⟨y, ys, hy, -⟩ := paragraphsFrom_front parts (by simp) (by simp) (hfront [])
        simp [hpart, hy]
      · obtain ⟨y, ys, hy, hy'⟩ := paragraphsFrom_front parts (by simp) (by simp) (hfront a)
        rw [hpart, paragraphsFrom_cons hp, List.singleton_append, hy, hy', Text.unlines_cons_append,
          List.append_assoc]

/-! ## The line of the tag -/

theorem head?_tag (f : Field) : f.tag.head? = some '@' := by
  cases f <;> rfl

section
variable (f : Field) {d : Text} (hd : ∀ c ∈ d, Tag.isDecoration c = true) (rest : Text)
include hd

theorem dropMarker_decorated : ∃ e, (∀ c ∈ e, Tag.isDecoration c = true) ∧
    dropMarker (d ++ (f.tag ++ rest)) = e ++ (f.tag ++ rest) := by
  obtain ⟨t, ht⟩ := List.head?_eq_some_iff.mp f.head?_tag
  have hdrop : (d ++ (f.tag ++ rest)).dropWhile Text.isIndent = d.dropWhile Text.isIndent ++ (f.tag ++ rest) := by
    apply Text.dropWhile_append_of_head
    rw [ht]
    simp +decide
  by_cases hu : Undecorated (d ++ (f.tag ++ rest))
  · exact ⟨d, hd, dropMarker_of_undecorated hu⟩
  · -- the star is one of the decoration, as the tag begins with another character
    unfold Undecorated at hu
    rw [hdrop] at hu
    unfold dropMarker
    rw [hdrop, ht]
    cases hi : d.dropWhile Text.isIndent with
    | nil => simp [hi, ht] at hu
    | cons star e =>
      obtain rfl : star = '*' := by simpa [hi] using hu
      have he : ∀ c ∈ e, Tag.isDecoration c = true := by
        intro c hc
        have hm : c ∈ d.dropWhile Text.isIndent := by simp [hi, hc]
        exact hd c ((List.dropWhile_suffix _).subset hm)
      cases e with
      | nil => exact ⟨[], by simp, by simp +decide⟩
      | cons c e =>
        rw [List.forall_mem_cons] at he
        have hc : c ≠ '/' := by
          rintro rfl
          exact absurd he.1 (by decide)
        by_cases hci : Text.isIndent c = true
        · exact ⟨e, he.2, by simp [hci]⟩
        · exact ⟨c :: e, List.forall_mem_cons.mpr he, by simp [hci]⟩

theorem strip_decorated : ∃ e, (∀ c ∈ e, Tag.isDecoration c = true) ∧
    Text.strip (d ++ (f.tag ++ rest)) = e ++ (f.tag ++ Text.stripEnd rest) := by
  have hdrop : (d ++ (f.tag ++ rest)).dropWhile Text.isBlank = d.dropWhile Text.isBlank ++ (f.tag ++ rest) := by
    apply Text.dropWhile_append_of_head
    rw [List.head?_append, f.head?_tag]
    simp +decide
  have hlast : ∀ c ∈ (d.dropWhile Text.isBlank ++ f.tag).getLast?, Text.isBlank c = false := by
    intro c hc
    rw [List.getLast?_append_of_ne_nil _ f.tag_ne] at hc
    exact f.tag_trimmed.2 c hc
  refine ⟨d.dropWhile Text.isBlank, fun c hc => hd c ((List.dropWhile_suffix _).subset hc), ?_⟩
  unfold Text.strip Text.trim Text.trimStart
  rw [hdrop, ← List.append_assoc, Text.trimEnd_append_of_last hlast, List.append_assoc]
  rfl

theorem strip_tag_decorated (hw : ∀ c ∈ rest.head?, Text.isWord c = false) :
    Tag.strip (some f.tag) (d ++ (f.tag ++ rest)) = rest.dropWhile Text.isIndent := by
  simp [Tag.strip, f.tag_ne, after?_tag_decoration f hd, after?_tag_append f hw]

end

theorem strip_dropMarker_head {f : Field} {head : Text} (h : ofLine? head = some f) :
    ∃ e, (∀ c ∈ e, Tag.isDecoration c = true) ∧
      Text.strip (dropMarker head) = e ++ (f.tag ++ Text.stripEnd (f.behind head)) := by
  have hd : ∀ c ∈ head.takeWhile Tag.isDecoration, Tag.isDecoration c = true := fun _ hc =>
    List.mem_takeWhile_imp hc
  obtain ⟨e, he, hm⟩ := dropMarker_decorated f hd (f.behind head)
  rw [← eq_tag_behind h] at hm
  rw [hm]
  exact strip_decorated f he _

/-! ## The value -/

theorem trimmed_unlines_oneLine {ps : List Text} (h : ∀ y ∈ ps, y ≠ [] ∧ OneLine y) :
    Text.Trimmed Text.isBlank (Text.unlines ps) := by
  apply Text.trimmed_unlines
  · intro l hl
    obtain ⟨hne, -, ht⟩ := h l (List.mem_of_head? hl)
    exact ⟨hne, ht.1⟩
  · intro l hl
    obtain ⟨hne, -, ht⟩ := h l (List.mem_of_getLast? hl)
    exact ⟨hne, ht.2⟩

theorem strip_unlines_oneLine {ps : List Text} (h : ∀ y ∈ ps, y ≠ [] ∧ OneLine y) :
    Text.strip (Text.unlines ps) = Text.unlines ps :=
  Text.strip_of_trimmed (trimmed_unlines_oneLine h)

section
variable {q : Text} {qs : List Text} (hq : ∀ y ∈ q :: qs, y ≠ [] ∧ OneLine y)
include hq

/-- Blanks in front of the first paragraph are lost, those of the indentation first. -/
theorem strip_blanks_unlines {w : Text} (hw : ∀ c ∈ w, Text.isBlank c = true) (hn : '\n' ∉ w) :
    Text.strip (Indent.strip ((w ++ Text.unlines (q :: qs)).dropWhile Text.isIndent)) = Text.unlines (q :: qs) := by
  obtain ⟨hne, -, ht⟩ := hq q (List.mem_cons_self ..)
  have hsub : w.dropWhile Text.isIndent ⊆ w := (List.dropWhile_suffix _).subset
  have hdrop : ∀ x : Text, x.head? = q.head? →
      (w ++ x).dropWhile Text.isIndent = w.dropWhile Text.isIndent ++ x := by
    intro x hx
    apply Text.dropWhile_append_of_head
    rw [hx]
    exact fun c hc => Text.isIndent_eq_false (ht.1 c hc)
  have hfirst : ∀ c ∈ (w.dropWhile Text.isIndent ++ q).head?, Text.isIndent c = false := by
    rw [← hdrop q rfl]
    exact Text.head_dropWhile _ _
  have hb : Text.isBlankText (w.dropWhile Text.isIndent ++ q) = false := by
    rw [Text.isBlankText_append, Text.isBlankText_eq_false hne ht.1, Bool.and_false]
  have hlines : ∀ line ∈ (w.dropWhile Text.isIndent ++ q) :: qs, '\n' ∉ line := by
    rw [List.forall_mem_cons] at hq ⊢
    refine ⟨?_, fun line hl => (hq.2 line hl).2.1⟩
    rw [List.mem_append, not_or]
    exact ⟨fun hm => hn (hsub hm), hq.1.2.1⟩
  rw [hdrop _ (Text.head?_unlines hne qs), ← Text.unlines_cons_append,
    Indent.strip_unlines_of_first hlines hb hfirst, Text.unlines_cons_append,
    Text.strip_append fun c hc => hw c (hsub hc)]
  exact strip_unlines_oneLine hq

theorem strip_newline_unlines :
    Text.strip (Indent.strip ('\n' :: Text.unlines (q :: qs))) = Text.unlines (q :: qs) := by
  obtain ⟨hne, -, ht⟩ := hq q (List.mem_cons_self ..)
  have hl : Text.lines ('\n' :: Text.unlines (q :: qs)) = [] :: q :: qs := by
    have hn := Text.lines_unlines (List.cons_ne_nil q qs) fun line hl => (hq line hl).2.1
    have ha := Text.lines_append [] (Text.unlines (q :: qs))
    rwa [hn] at ha
  have hi : Indent.ofLine q = [] := by
    obtain ⟨c, t, rfl⟩ := List.exists_cons_of_ne_nil hne
    exact List.takeWhile_cons_of_neg (by simp [Text.isIndent_eq_false (ht.1 c rfl)])
  have hs : Indent.shared ([] :: q :: qs) = [] :=
    Indent.shared_of_mem (by simp) (Text.isBlankText_eq_false hne ht.1) hi
  rw [Indent.strip_of_shared (hl ▸ hs), Text.strip_cons (by decide)]
  exact strip_unlines_oneLine hq

end

theorem dropMarker_suffix (line : Text) : dropMarker line <:+ line := by
  have hd : line.dropWhile Text.isIndent <:+ line := List.dropWhile_suffix _
  unfold dropMarker
  split
  · exact List.suffix_refl line
  · rename_i c rest _ he
    rw [he] at hd
    have hc : c :: rest <:+ line := (List.suffix_cons '*' _).trans hd
    split
    · exact (List.suffix_cons c rest).trans hc
    · exact hc
  · exact List.nil_suffix
  · exact List.suffix_refl line

theorem oneLine_strip {s : Text} (h : '\n' ∉ s) : OneLine (Text.strip s) :=
  ⟨fun hm => h ((Text.trim_infix _ s).subset hm), Text.trimmed_trim _ s⟩

def parts (ls : List Text) : List Text := ls.map fun line => Text.strip (dropMarker line)

theorem oneLine_parts {ls : List Text} (h : ∀ line ∈ ls, '\n' ∉ line) : ∀ part ∈ parts ls, OneLine part := by
  intro part hp
  obtain ⟨line, hl, rfl⟩ := List.mem_map.mp hp
  exact oneLine_strip fun hm => h line hl ((dropMarker_suffix line).subset hm)

theorem behind_suffix (f : Field) (line : Text) : f.behind line <:+ line :=
  (List.drop_suffix _ _).trans (List.dropWhile_suffix _)

section
variable {f : Field} {head : Text} (h : ofLine? head = some f)
include h

theorem oneLine_single (hn : '\n' ∉ head) : OneLine (single f.tag head) := by
  rw [single_eq_behind h]
  exact oneLine_strip fun hm => hn ((f.behind_suffix head).subset hm)

/-- The value, if `sep` stands between the line of the tag and the paragraphs below it. -/
theorem folded_of_sep {body : List Text} {sep : Text}
    (hsep : sep = [] ∧ paragraphs (parts body) = [] ∨ (sep = ['\n'] ∨ sep = [' ']) ∧ paragraphs (parts body) ≠ [])
    (hfront : ∀ a, Text.unlines (paragraphsFrom [a] (parts body)) =
      a ++ (sep ++ Text.unlines (paragraphs (parts body)))) :
    folded (some f.tag) (head :: body) = Text.strip (Indent.strip
      ((Text.stripEnd (f.behind head) ++
        (sep ++ Text.unlines (paragraphs (parts body)))).dropWhile Text.isIndent)) := by
  obtain ⟨e, he, hhead⟩ := strip_dropMarker_head h
  have hword : ∀ c ∈ (Text.stripEnd (f.behind head) ++ (sep ++ Text.unlines (paragraphs (parts body)))).head?,
      Text.isWord c = false := by
    cases hx : Text.stripEnd (f.behind head) with
    | nil =>
      rcases hsep with ⟨rfl, hnil⟩ | ⟨rfl | rfl, -⟩
      · simp [hnil, Text.unlines, Text.join]
      · simp +decide
      · simp +decide
    | cons c x =>
      obtain ⟨r, hr⟩ : Text.stripEnd (f.behind head) <+: f.behind head := List.rdropWhile_prefix _ _
      have hb := (dropWhile_behind h).2
      rw [← hr, hx] at hb
      exact hb
  have hne : e ++ (f.tag ++ Text.stripEnd (f.behind head)) ≠ [] := by simp [f.tag_ne]
  have htext : Text.unlines (paragraphs (parts (head :: body))) = e ++ (f.tag ++ (Text.stripEnd (f.behind head) ++
      (sep ++ Text.unlines (paragraphs (parts body))))) := by
    have hp : parts (head :: body) = Text.strip (dropMarker head) :: parts body := rfl
    rw [hp, hhead, paragraphs, paragraphsFrom_cons hne, List.nil_append, hfront]
    simp only [List.append_assoc]
  show Text.strip (Indent.strip (Tag.strip (some f.tag) (Text.unlines (paragraphs (parts (head :: body)))))) = _
  rw [htext, strip_tag_decorated f he _ hword]

/-- **A folded value** is made up of the paragraphs of the value behind the tag and of the lines below. -/
theorem folded_eq {body : List Text} (hn : ∀ line ∈ head :: body, '\n' ∉ line) :
    folded (some f.tag) (head :: body) = Text.unlines (paragraphs (single f.tag head :: parts body)) := by
  rw [List.forall_mem_cons] at hn
  obtain ⟨sep, hsep, hfront⟩ := unlines_paragraphsFrom_singleton (parts body)
  have hparts := oneLine_parts hn.2
  have hx : Text.stripEnd (f.behind head) =
      (Text.stripEnd (f.behind head)).takeWhile Text.isBlank ++ single f.tag head := by
    rw [single_eq_behind h, Text.strip, Text.trim_eq_dropWhile_trimEnd]
    exact List.takeWhile_append_dropWhile.symm
  rw [folded_of_sep h hsep hfront]
  by_cases hv : single f.tag head = []
  · -- the value begins below the line of the tag, if there is one
    have hnil : Text.stripEnd (f.behind head) = [] := by
      rw [single_eq_behind h] at hv
      exact Text.trimEnd_eq_nil_of_trim hv
    have hrest : paragraphs ([] :: parts body) = paragraphs (parts body) := rfl
    have hq := oneLine_paragraphs hparts
    rw [hv, hnil, List.nil_append, hrest]
    rcases hsep with ⟨rfl, hps⟩ | ⟨hsep, hps⟩
    · rw [hps]; rfl
    · obtain ⟨q, qs, hqs⟩ := List.exists_cons_of_ne_nil hps
      rw [hqs] at hq ⊢
      rcases hsep with rfl | rfl
      · exact strip_newline_unlines hq
      · exact strip_blanks_unlines hq (by decide) (by decide)
  · have hps : paragraphs (single f.tag head :: parts body) = paragraphsFrom [single f.tag head] (parts body) := by
      rw [paragraphs, paragraphsFrom_cons hv, List.nil_append]
    have hq := oneLine_paragraphs (List.forall_mem_cons.mpr ⟨oneLine_single h hn.1, hparts⟩)
    have hw : '\n' ∉ (Text.stripEnd (f.behind head)).takeWhile Text.isBlank := fun hm =>
      hn.1 ((f.behind_suffix head).subset
        ((List.rdropWhile_prefix _ _).subset ((List.takeWhile_prefix _).subset hm)))
    rw [hx, List.append_assoc, ← hfront, ← hps]
    cases hqs : paragraphs (single f.tag head :: parts body) with
    | nil =>
      have hu := hfront (single f.tag head)
      rw [← hps, hqs] at hu
      exact absurd (List.append_eq_nil_iff.mp hu.symm).1 hv
    | cons q qs =>
      rw [hqs] at hq
      exact strip_blanks_unlines hq (fun c hc => List.mem_takeWhile_imp hc) hw

end

end Field

end PatternBook
