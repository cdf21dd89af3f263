import Mathlib.Data.List.DropRight
import Mathlib.Data.List.Induction
import Mathlib.Data.List.TakeWhile
import PatternBook.Text.Blank

/-!
# Laws of texts

What is at the front of a text, what trimming leaves, and that lines which hold no line break are got
back from the text they make up.
-/

namespace PatternBook.Text

/-! ## Deciding

A statement about the characters of a text is decided along the text, never over all characters. -/

section
variable (P : Char → Prop) [DecidablePred P]

instance (priority := high) (s : Text) : Decidable (∀ c ∈ s, P c) := List.decidableBAll P s

instance (priority := high) (o : Option Char) : Decidable (∀ c ∈ o, P c) := o.decidableForallMem

instance (priority := high) (o : Option Char) : Decidable (∃ c ∈ o, P c) := o.decidableExistsMem

end

/-! ## The front of a text -/

theorem after?_eq_some_iff : ∀ {start s rest : Text}, after? start s = some rest ↔ s = start ++ rest
  | [], s, rest => by simp [after?]
  | c :: start, [], rest => by simp [after?]
  | c :: start, d :: s, rest => by
    by_cases h : c = d
    · subst h; simp [after?, after?_eq_some_iff]
    · simp [after?, h, Ne.symm h]

theorem after?_eq_none_iff {start s : Text} : after? start s = none ↔ ∀ rest, s ≠ start ++ rest := by
  rw [Option.eq_none_iff_forall_ne_some]
  exact forall_congr' fun rest => not_congr after?_eq_some_iff

theorem after?_append (start rest : Text) : after? start (start ++ rest) = some rest :=
  after?_eq_some_iff.mpr rfl

theorem cutAt_of_not_mem {sep : Char} : ∀ {s : Text}, sep ∉ s → cutAt sep s = (s, none)
  | [], _ => rfl
  | c :: s, h => by
    rw [List.mem_cons, not_or] at h
    rw [cutAt, if_neg (Ne.symm h.1), cutAt_of_not_mem h.2]

theorem cutAt_append {sep : Char} (rest : Text) : ∀ {s : Text}, sep ∉ s →
    cutAt sep (s ++ sep :: rest) = (s, some rest)
  | [], _ => by simp [cutAt]
  | c :: s, h => by
    rw [List.mem_cons, not_or] at h
    rw [List.cons_append, cutAt, if_neg (Ne.symm h.1), cutAt_append rest h.2]

theorem cutAt_eq (sep : Char) : ∀ s : Text,
    sep ∉ (cutAt sep s).1 ∧ s = (cutAt sep s).1 ++ (cutAt sep s).2.elim [] (sep :: ·)
  | [] => ⟨List.not_mem_nil, rfl⟩
  | c :: s => by
    obtain ⟨hn, hs⟩ := cutAt_eq sep s
    rw [cutAt]
    by_cases hc : c = sep
    · subst hc
      simp
    · rw [if_neg hc]
      refine ⟨by simpa [Ne.symm hc] using hn, ?_⟩
      rw [List.cons_append, ← hs]

/-! ## Runs

A run of a class ends where something else follows, so it is known where it ends. -/

theorem head_dropWhile {α : Type} (p : α → Bool) (s : List α) : ∀ x ∈ (s.dropWhile p).head?, p x = false := by
  intro x hx
  have hd := List.head?_dropWhile_not p s
  rw [hx] at hd
  exact hd

theorem exists_run {α : Type} (p : α → Bool) (s : List α) :
    ∃ run rest, s = run ++ rest ∧ (∀ x ∈ run, p x = true) ∧ ∀ x ∈ rest.head?, p x = false :=
  ⟨_, _, List.takeWhile_append_dropWhile.symm, fun _ hx => List.mem_takeWhile_imp hx, head_dropWhile p s⟩

section
variable {α : Type} {p : α → Bool} {run rest : List α} (hin : ∀ x ∈ run, p x = true)
  (hout : ∀ x ∈ rest.head?, p x = false)
include hin hout

theorem takeWhile_run : (run ++ rest).takeWhile p = run := by
  rw [List.takeWhile_append_of_pos hin]
  cases rest with
  | nil => simp
  | cons x rest => simp [hout x rfl]

theorem dropWhile_run : (run ++ rest).dropWhile p = rest := by
  rw [List.dropWhile_append_of_pos hin]
  cases rest with
  | nil => rfl
  | cons x rest => simp [hout x rfl]

theorem run_inj {run' rest' : List α} (hin' : ∀ x ∈ run', p x = true) (hout' : ∀ x ∈ rest'.head?, p x = false)
    (h : run ++ rest = run' ++ rest') : run = run' ∧ rest = rest' := by
  constructor
  · rw [← takeWhile_run hin hout, h, takeWhile_run hin' hout']
  · rw [← dropWhile_run hin hout, h, dropWhile_run hin' hout']

end

/-! ## Trimming -/

def Trimmed (p : Char → Bool) (s : Text) : Prop :=
  (∀ c ∈ s.head?, p c = false) ∧ ∀ c ∈ s.getLast?, p c = false

instance (p : Char → Bool) (s : Text) : Decidable (Trimmed p s) := inferInstanceAs (Decidable (_ ∧ _))

section
variable {p q : Char → Bool} {s : Text}

theorem dropWhile_of_head (h : ∀ c ∈ s.head?, p c = false) : s.dropWhile p = s := by
  cases s with
  | nil => rfl
  | cons c s => exact List.dropWhile_cons_of_neg (by simp [h c rfl])

theorem trimEnd_of_last (h : ∀ c ∈ s.getLast?, p c = false) : trimEnd p s = s := by
  unfold trimEnd
  rw [dropWhile_of_head (by simpa using h), List.reverse_reverse]

theorem trim_of_trimmed (h : Trimmed p s) : trim p s = s := by
  unfold trim trimStart
  rw [dropWhile_of_head h.1, trimEnd_of_last h.2]

theorem trimEnd_append {r : Text} (h : ∀ c ∈ r, p c = true) : trimEnd p (s ++ r) = trimEnd p s := by
  unfold trimEnd
  rw [List.reverse_append, List.dropWhile_append_of_pos (by simpa using h)]

theorem trim_append {l r : Text} (hl : ∀ c ∈ l, p c = true) (hr : ∀ c ∈ r, p c = true)
    (hs : Trimmed p s) (hne : s ≠ []) : trim p (l ++ s ++ r) = s := by
  have hhead : ∀ c ∈ (s ++ r).head?, p c = false := by
    obtain ⟨c, t, rfl⟩ := List.exists_cons_of_ne_nil hne
    simpa using hs.1
  unfold trim trimStart
  rw [List.append_assoc, List.dropWhile_append_of_pos hl, dropWhile_of_head hhead, trimEnd_append hr,
    trimEnd_of_last hs.2]

/-- With more behind it, the same is dropped from a text, and what is left has some of that behind it. -/
theorem dropWhile_append_eq (p : Char → Bool) (s r : Text) :
    ∃ r', r' <:+ r ∧ (s ++ r).dropWhile p = s.dropWhile p ++ r' := by
  rw [List.dropWhile_append]
  split
  · rename_i h
    exact ⟨r.dropWhile p, List.dropWhile_suffix p, by rw [List.isEmpty_iff.mp h]; rfl⟩
  · exact ⟨r, List.suffix_refl r, rfl⟩

theorem trim_append_end {r : Text} (h : ∀ c ∈ r, p c = true) : trim p (s ++ r) = trim p s := by
  obtain ⟨r', hr, hd⟩ := dropWhile_append_eq p s r
  unfold trim trimStart
  rw [hd, trimEnd_append fun c hc => h c (hr.subset hc)]

theorem trim_trimEnd (p : Char → Bool) (s : Text) : trim p (trimEnd p s) = trim p s := by
  have hs : trimEnd p s ++ s.rtakeWhile p = s := List.rdropWhile_append_rtakeWhile
  have h := trim_append_end (s := trimEnd p s) (r := s.rtakeWhile p) fun _ => List.mem_rtakeWhile_imp
  rw [← h, hs]

theorem trimmed_append {a b : Text} (ha : ∀ c ∈ a.head?, p c = false) (hane : a ≠ [])
    (hb : ∀ c ∈ b.getLast?, p c = false) (hbne : b ≠ []) : Trimmed p (a ++ s ++ b) := by
  obtain ⟨c, t, rfl⟩ := List.exists_cons_of_ne_nil hane
  refine ⟨by simpa using ha, fun d hd => hb d ?_⟩
  rwa [List.getLast?_append_of_ne_nil _ hbne] at hd

theorem dropWhile_dropWhile (h : ∀ c, q c = true → p c = true) :
    (s.dropWhile q).dropWhile p = s.dropWhile p := by
  induction s with
  | nil => rfl
  | cons c s ih =>
    by_cases hq : q c = true
    · rw [List.dropWhile_cons_of_pos hq, ih, List.dropWhile_cons_of_pos (h c hq)]
    · rw [List.dropWhile_cons_of_neg hq]

theorem dropWhile_append_of_head {r : Text} (h : ∀ c ∈ r.head?, p c = false) :
    (s ++ r).dropWhile p = s.dropWhile p ++ r := by
  rw [List.dropWhile_append]
  split
  · rename_i hs
    rw [List.isEmpty_iff.mp hs, dropWhile_of_head h]
    rfl
  · rfl

theorem trimEnd_append_of_last {a : Text} (h : ∀ c ∈ a.getLast?, p c = false) :
    trimEnd p (a ++ s) = a ++ trimEnd p s := by
  have hh : ∀ c ∈ a.reverse.head?, p c = false := by simpa using h
  unfold trimEnd
  rw [List.reverse_append, dropWhile_append_of_head hh, List.reverse_append, List.reverse_reverse]

theorem last_trimEnd (p : Char → Bool) (s : Text) : ∀ c ∈ (trimEnd p s).getLast?, p c = false := by
  intro c hc
  unfold trimEnd at hc
  rw [List.getLast?_reverse] at hc
  exact head_dropWhile p s.reverse c hc

theorem trimmed_trim (p : Char → Bool) (s : Text) : Trimmed p (trim p s) := by
  refine ⟨fun c hc => ?_, last_trimEnd p _⟩
  obtain ⟨t, ht⟩ : trim p s <+: s.dropWhile p := List.rdropWhile_prefix p _
  obtain ⟨r, hr⟩ := List.head?_eq_some_iff.mp hc
  have hd := head_dropWhile p s
  rw [← ht, hr] at hd
  exact hd c rfl

theorem last_of_suffix {t : Text} (ht : t <:+ s) (h : ∀ c ∈ s.getLast?, p c = false) :
    ∀ c ∈ t.getLast?, p c = false := by
  obtain ⟨r, rfl⟩ := ht
  intro c hc
  apply h
  rwa [List.getLast?_append_of_ne_nil]
  rintro rfl
  simp at hc

theorem trim_eq_dropWhile_trimEnd (p : Char → Bool) (s : Text) : trim p s = (trimEnd p s).dropWhile p := by
  rw [← trim_trimEnd]
  exact trimEnd_of_last (last_of_suffix (List.dropWhile_suffix p) (last_trimEnd p s))

theorem trimEnd_eq_nil_of_trim (h : trim p s = []) : trimEnd p s = [] := by
  rw [trim_eq_dropWhile_trimEnd, List.dropWhile_eq_nil_iff] at h
  rw [← trimEnd_of_last (last_trimEnd p s)]
  exact List.rdropWhile_eq_nil_iff.mpr h

theorem trim_eq_nil_iff : trim p s = [] ↔ ∀ c ∈ s, p c = true := by
  constructor
  · intro h
    exact List.rdropWhile_eq_nil_iff.mp (trimEnd_eq_nil_of_trim h)
  · intro h
    have hend : trimEnd p s = [] := List.rdropWhile_eq_nil_iff.mpr h
    rw [trim_eq_dropWhile_trimEnd, hend]
    rfl

theorem trim_infix (p : Char → Bool) (s : Text) : trim p s <:+: s :=
  (List.rdropWhile_prefix p _).isInfix.trans (List.dropWhile_suffix p).isInfix

theorem isBlankText_eq_false {s : Text} (hne : s ≠ []) (h : ∀ c ∈ s.head?, isBlank c = false) :
    isBlankText s = false := by
  obtain ⟨c, t, rfl⟩ := List.exists_cons_of_ne_nil hne
  simp [isBlankText, h c rfl]

theorem isBlankText_append (s t : Text) : isBlankText (s ++ t) = (isBlankText s && isBlankText t) :=
  List.all_append

theorem strip_of_trimmed {s : Text} (h : Trimmed isBlank s) : strip s = s := trim_of_trimmed h

theorem strip_eq_nil_iff {s : Text} : strip s = [] ↔ isBlankText s = true := by
  unfold isBlankText
  rw [List.all_eq_true]
  exact trim_eq_nil_iff

theorem isBlank_of_isIndent {c : Char} (h : isIndent c = true) : isBlank c = true := by
  simp only [isIndent, Bool.or_eq_true, beq_iff_eq] at h
  rcases h with rfl | rfl <;> decide

theorem isIndent_eq_false {c : Char} (h : isBlank c = false) : isIndent c = false := by
  cases hi : isIndent c with
  | false => rfl
  | true => rw [isBlank_of_isIndent hi] at h; cases h

theorem strip_dropWhile_isIndent (s : Text) : strip (s.dropWhile isIndent) = strip s := by
  unfold strip trim trimStart
  rw [dropWhile_dropWhile fun _ => isBlank_of_isIndent]

theorem strip_cons {c : Char} (h : isBlank c = true) (s : Text) : strip (c :: s) = strip s := by
  unfold strip trim trimStart
  rw [List.dropWhile_cons_of_pos h]

theorem strip_append {w : Text} (h : ∀ c ∈ w, isBlank c = true) (s : Text) : strip (w ++ s) = strip s := by
  unfold strip trim trimStart
  rw [List.dropWhile_append_of_pos h]

end

/-! ## Lines -/

theorem splitAt_eq_splitOn (sep : Char) : ∀ s : Text, splitAt sep s = s.splitOn sep
  | [] => rfl
  | c :: s => by
    rw [splitAt, List.splitOn_cons_eq_if_modifyHead, splitAt_eq_splitOn sep s]
    by_cases h : c = sep
    · simp [h]
    · have hne := List.splitOn_ne_nil sep s
      cases hs : s.splitOn sep with
      | nil => exact absurd hs hne
      | cons part parts => simp [h]

theorem unlines_lines (s : Text) : unlines (lines s) = s := by
  unfold unlines lines join
  rw [splitAt_eq_splitOn, List.intercalate_splitOn]

theorem lines_unlines {ls : List Text} (hne : ls ≠ []) (h : ∀ l ∈ ls, '\n' ∉ l) :
    lines (unlines ls) = ls := by
  unfold unlines lines join
  rw [splitAt_eq_splitOn, List.splitOn_intercalate '\n' h hne]

theorem lines_ne_nil (s : Text) : lines s ≠ [] := by
  unfold lines
  rw [splitAt_eq_splitOn]
  exact List.splitOn_ne_nil _ _

theorem not_mem_of_mem_splitAt {sep : Char} : ∀ {s part : Text}, part ∈ splitAt sep s → sep ∉ part
  | [], part, h => by
    rw [splitAt, List.mem_singleton] at h
    simp [h]
  | c :: s, part, h => by
    have ih : ∀ part ∈ splitAt sep s, sep ∉ part := fun _ => not_mem_of_mem_splitAt
    rw [splitAt] at h
    by_cases hc : c = sep
    · rw [if_pos hc, List.mem_cons] at h
      rcases h with rfl | h
      · simp
      · exact ih part h
    · rw [if_neg hc] at h
      cases hs : splitAt sep s with
      | nil =>
        rw [hs, List.mem_singleton] at h
        simp [h, Ne.symm hc]
      | cons first parts =>
        rw [hs, List.mem_cons] at h
        rw [hs] at ih
        rcases h with rfl | h
        · simp [Ne.symm hc, ih first (List.mem_cons_self ..)]
        · exact ih part (List.mem_cons_of_mem first h)

theorem not_mem_of_mem_lines {s line : Text} (h : line ∈ lines s) : '\n' ∉ line :=
  not_mem_of_mem_splitAt h

theorem join_cons_cons (sep t t' : Text) (ts : List Text) :
    join sep (t :: t' :: ts) = t ++ (sep ++ join sep (t' :: ts)) := by
  simp [join]

theorem unlines_cons_cons (l l' : Text) (ls : List Text) :
    unlines (l :: l' :: ls) = l ++ '\n' :: unlines (l' :: ls) :=
  join_cons_cons ['\n'] l l' ls

/-- A mark without a line break stands on one of the lines. -/
theorem infix_unlines {mark : Text} (hne : mark ≠ []) (hm : '\n' ∉ mark) : ∀ {ls : List Text},
    mark <:+: unlines ls → ∃ l ∈ ls, mark <:+: l
  | [], h => absurd (List.infix_nil.mp h) hne
  | [l], h => ⟨l, by simp, by simpa [unlines, join] using h⟩
  | l :: l' :: ls, h => by
    rw [unlines_cons_cons, List.infix_append_iff] at h
    rcases h with h | h | ⟨a, b, rfl, ha, hb⟩
    · exact ⟨l, by simp, h⟩
    · have h' : mark <:+: unlines (l' :: ls) := by
        rcases List.infix_cons_iff.mp h with h | h
        · -- at the break itself the mark would have to begin with it
          obtain ⟨c, t, rfl⟩ := List.exists_cons_of_ne_nil hne
          obtain ⟨rfl, _⟩ := List.cons_prefix_cons.mp h
          simp at hm
        · exact h
      obtain ⟨l'', hl, hi⟩ := infix_unlines hne hm h'
      exact ⟨l'', List.mem_cons_of_mem l hl, hi⟩
    · cases b with
      | nil => exact ⟨l, by simp, by simpa using ha.isInfix⟩
      | cons c b =>
        obtain ⟨rfl, _⟩ := List.cons_prefix_cons.mp hb
        simp at hm

theorem unlines_cons_append (a l : Text) (ls : List Text) :
    unlines ((a ++ l) :: ls) = a ++ unlines (l :: ls) := by
  cases ls <;> simp [unlines, join]

theorem unlines_concat (l : Text) : ∀ {ls : List Text}, ls ≠ [] →
    unlines (ls ++ [l]) = unlines ls ++ '\n' :: l
  | [_], _ => by simp [unlines, join]
  | l₁ :: l₂ :: ls, _ => by
    have ih := unlines_concat l (List.cons_ne_nil l₂ ls)
    rw [List.cons_append] at ih
    rw [List.cons_append, List.cons_append, unlines_cons_cons, ih, unlines_cons_cons]
    simp

theorem head?_unlines {l : Text} (hl : l ≠ []) (ls : List Text) : (unlines (l :: ls)).head? = l.head? := by
  obtain ⟨c, t, rfl⟩ := List.exists_cons_of_ne_nil hl
  simp [unlines, join]

theorem getLast?_unlines {l : Text} (hl : l ≠ []) (ls : List Text) :
    (unlines (ls ++ [l])).getLast? = l.getLast? := by
  by_cases hls : ls = []
  · simp [hls, unlines, join]
  · rw [unlines_concat l hls, List.getLast?_append_of_ne_nil _ (List.cons_ne_nil _ l),
      List.getLast?_cons_of_ne_nil hl]

theorem trimmed_unlines {p : Char → Bool} {ls : List Text}
    (hh : ∀ l ∈ ls.head?, l ≠ [] ∧ ∀ c ∈ l.head?, p c = false)
    (hl : ∀ l ∈ ls.getLast?, l ≠ [] ∧ ∀ c ∈ l.getLast?, p c = false) : Trimmed p (unlines ls) := by
  cases ls with
  | nil => simp [Trimmed, unlines, join]
  | cons l ls =>
    obtain ⟨hne, hhead⟩ := hh l rfl
    have hsome := List.getLast?_eq_some_getLast (List.cons_ne_nil l ls)
    have hl' := hl _ hsome
    obtain ⟨init, hlast⟩ := List.getLast?_eq_some_iff.mp hsome
    refine ⟨?_, ?_⟩
    · rw [head?_unlines hne]; exact hhead
    · rw [hlast, getLast?_unlines hl'.1]; exact hl'.2

theorem lines_append (s t : Text) : lines (s ++ '\n' :: t) = lines s ++ lines t := by
  unfold lines
  rw [splitAt_eq_splitOn, splitAt_eq_splitOn, splitAt_eq_splitOn]
  exact List.splitOnP_append_cons s t (by simp)

theorem lines_dropWhile_newline (s : Text) :
    ∃ n, lines s = List.replicate n [] ++ lines (s.dropWhile (· == '\n')) := by
  induction s with
  | nil => exact ⟨0, rfl⟩
  | cons c s ih =>
    by_cases hc : c = '\n'
    · subst hc
      obtain ⟨n, hn⟩ := ih
      have hl : lines ('\n' :: s) = [] :: lines s := lines_append [] s
      refine ⟨n + 1, ?_⟩
      rw [hl, hn, List.dropWhile_cons_of_pos (by simp)]
      rfl
    · refine ⟨0, ?_⟩
      rw [List.dropWhile_cons_of_neg (by simpa using hc)]
      rfl

theorem lines_trimEnd_newline (s : Text) :
    ∃ n, lines s = lines (trimEnd (· == '\n') s) ++ List.replicate n [] := by
  induction s using List.reverseRecOn with
  | nil => exact ⟨0, rfl⟩
  | append_singleton s c ih =>
    by_cases hc : c = '\n'
    · subst hc
      obtain ⟨n, hn⟩ := ih
      have hl : lines (s ++ ['\n']) = lines s ++ [[]] := lines_append s []
      refine ⟨n + 1, ?_⟩
      rw [hl, hn, trimEnd_append (by simp), List.append_assoc, List.replicate_succ']
    · refine ⟨0, ?_⟩
      rw [trimEnd_of_last (by simpa using hc)]
      simp

theorem unlines_replicate_append (m : Nat) {ls : List Text} (hne : ls ≠ []) :
    unlines (List.replicate m [] ++ ls) = List.replicate m '\n' ++ unlines ls := by
  induction m with
  | zero => rfl
  | succ m ih =>
    obtain ⟨l, rest, hl⟩ :=
      List.exists_cons_of_ne_nil (List.append_ne_nil_of_right_ne_nil (List.replicate m []) hne)
    rw [List.replicate_succ, List.cons_append, hl, unlines_cons_cons, ← hl, ih]
    rfl

theorem unlines_append_replicate (n : Nat) {ls : List Text} (hne : ls ≠ []) :
    unlines (ls ++ List.replicate n []) = unlines ls ++ List.replicate n '\n' := by
  induction n with
  | zero => simp
  | succ n ih =>
    rw [List.replicate_succ', ← List.append_assoc, unlines_concat [] (by simp [hne]), ih, List.append_assoc,
      List.replicate_succ']

/-- Empty lines around a text are line breaks at its ends. -/
theorem trim_unlines_newline (m n : Nat) {ls : List Text} (hne : ls ≠ []) :
    trim (· == '\n') (unlines (List.replicate m [] ++ ls ++ List.replicate n [])) =
      trim (· == '\n') (unlines ls) := by
  have hbreaks : ∀ k, ∀ c ∈ List.replicate k '\n', (c == '\n') = true := by
    intro k c hc
    rw [List.eq_of_mem_replicate hc]
    rfl
  rw [unlines_append_replicate n (by simp [hne]), trim_append_end (hbreaks n), unlines_replicate_append m hne]
  unfold trim trimStart
  rw [List.dropWhile_append_of_pos (hbreaks m)]

/-- Line breaks at the ends of a text are empty lines around it. -/
theorem lines_trim_newline (s : Text) : ∃ m n,
    lines s = List.replicate m [] ++ lines (trim (· == '\n') s) ++ List.replicate n [] := by
  obtain ⟨m, hm⟩ := lines_dropWhile_newline s
  obtain ⟨n, hn⟩ := lines_trimEnd_newline (s.dropWhile (· == '\n'))
  refine ⟨m, n, ?_⟩
  rw [hm, hn, List.append_assoc]
  rfl

end PatternBook.Text
