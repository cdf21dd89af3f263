import Mathlib.Data.Char
import Mathlib.Data.List.Lex
import PatternBook.Proofs.FieldLemmas

/-!
# Laws of shared indentation

What the least and the greatest of some texts begin with in common, each text between them begins with as
well. So the shared indentation stands in front of every line that is not blank, and once it is taken off,
nothing is shared any more: to take it off twice is to take it off once. Empty lines in front of a text or
behind it have no part in this.
-/

namespace PatternBook

namespace Text

/-! ## Texts in order -/

theorem le_eq_false_iff : ∀ {a b : Text}, le a b = false ↔ b < a
  | [], b => by simp [le]
  | c :: a, [] => by simp [le]
  | c :: a, d :: b => by
    rw [List.cons_lt_cons_iff]
    rcases lt_trichotomy c d with h | rfl | h
    · simp [le, h, h.ne', not_lt_of_gt h]
    · simp [le, le_eq_false_iff]
    · simp [le, h, h.ne', not_lt_of_gt h]

theorem le_iff {a b : Text} : le a b = true ↔ a ≤ b := by
  rw [← not_lt, ← le_eq_false_iff, Bool.not_eq_false]

theorem le_total (a b : Text) : le a b = true ∨ le b a = true := by
  rw [le_iff, le_iff]
  exact LinearOrder.le_total a b

theorem le_trans {a b c : Text} (hab : le a b = true) (hbc : le b c = true) : le a c = true := by
  rw [le_iff] at hab hbc ⊢
  exact hab.trans hbc

theorem le_append (a b : Text) : ∀ p : Text, le (p ++ a) (p ++ b) = le a b
  | [] => rfl
  | c :: p => by simp [le, le_append a b p]

theorem commonStart_append (a b : Text) : ∀ p : Text, commonStart (p ++ a) (p ++ b) = p ++ commonStart a b
  | [] => rfl
  | c :: p => by simp [commonStart, commonStart_append a b p]

/-- A text between two others begins with what they begin with in common. -/
theorem commonStart_prefix_of_le : ∀ {a x b : Text}, le a x = true → le x b = true → commonStart a b <+: x
  | [], _, _, _, _ => List.nil_prefix
  | _ :: _, _, [], _, _ => List.nil_prefix
  | _ :: _, [], _ :: _, hax, _ => by simp [le] at hax
  | c :: a, e :: x, d :: b, hax, hxb => by
    unfold commonStart
    by_cases hcd : c = d
    · subst hcd
      simp only [le, Bool.or_eq_true, Bool.and_eq_true, decide_eq_true_eq, beq_iff_eq] at hax hxb
      rw [if_pos rfl]
      rcases hax with hce | ⟨rfl, hax⟩
      · rcases hxb with hec | ⟨rfl, -⟩
        · exact absurd hec (lt_asymm hce)
        · exact absurd hce (lt_irrefl _)
      · rcases hxb with hcc | ⟨-, hxb⟩
        · exact absurd hcc (lt_irrefl _)
        · exact (List.prefix_cons_inj _).mpr (commonStart_prefix_of_le hax hxb)
    · rw [if_neg hcd]
      exact List.nil_prefix

end Text

namespace Indent

/-! ## The least and the greatest -/

def foremost (r : Text → Text → Bool) (t : Text) (ts : List Text) : Text :=
  ts.foldl (fun m x => if r m x then m else x) t

section
variable {r : Text → Text → Bool}

theorem foremost_cons (t x : Text) (ts : List Text) :
    foremost r t (x :: ts) = foremost r (if r t x then t else x) ts := rfl

theorem foremost_map {f : Text → Text} (hf : ∀ a b, r (f a) (f b) = r a b) (ts : List Text) :
    ∀ t, foremost r (f t) (ts.map f) = f (foremost r t ts) := by
  induction ts with
  | nil => intro t; rfl
  | cons x ts ih =>
    intro t
    rw [List.map_cons, foremost_cons, foremost_cons, hf, ← ih]
    split <;> rfl

variable (htotal : ∀ a b, r a b = true ∨ r b a = true)
  (htrans : ∀ {a b c}, r a b = true → r b c = true → r a c = true)
include htotal htrans

theorem foremost_rel (ts : List Text) : ∀ {t x : Text}, x ∈ t :: ts → r (foremost r t ts) x = true := by
  induction ts with
  | nil =>
    intro t x hx
    rw [List.mem_singleton.mp hx]
    exact (or_self_iff).mp (htotal t t)
  | cons y ts ih =>
    intro t x hx
    rw [foremost_cons]
    by_cases hty : r t y = true
    · rw [if_pos hty]
      rcases List.mem_cons.mp hx with rfl | hx
      · exact ih (List.mem_cons_self ..)
      · rcases List.mem_cons.mp hx with rfl | hx
        · exact htrans (ih (List.mem_cons_self ..)) hty
        · exact ih (List.mem_cons_of_mem t hx)
    · rw [if_neg hty]
      rcases List.mem_cons.mp hx with rfl | hx
      · exact htrans (ih (List.mem_cons_self ..)) ((htotal x y).resolve_left hty)
      · exact ih hx

end

theorem least_le (ts : List Text) {t x : Text} (h : x ∈ t :: ts) : Text.le (least t ts) x = true :=
  foremost_rel Text.le_total Text.le_trans ts h

theorem le_greatest (ts : List Text) {t x : Text} (h : x ∈ t :: ts) : Text.le x (greatest t ts) = true :=
  foremost_rel (r := fun a b => Text.le b a) (fun a b => Text.le_total b a)
    (fun hab hbc => Text.le_trans hbc hab) ts h

theorem least_map_append (p : Text) (ts : List Text) (t : Text) :
    least (p ++ t) (ts.map (p ++ ·)) = p ++ least t ts :=
  foremost_map (r := Text.le) (fun a b => Text.le_append a b p) ts t

theorem greatest_map_append (p : Text) (ts : List Text) (t : Text) :
    greatest (p ++ t) (ts.map (p ++ ·)) = p ++ greatest t ts :=
  foremost_map (r := fun a b => Text.le b a) (fun a b => Text.le_append b a p) ts t

/-! ## What is shared -/

theorem shared_of_nil {ls : List Text} (h : indents ls = []) : shared ls = [] := by
  unfold shared
  rw [h]

theorem shared_of_cons {ls ts : List Text} {t : Text} (h : indents ls = t :: ts) :
    shared ls = Text.commonStart (least t ts) (greatest t ts) := by
  unfold shared
  rw [h]

theorem shared_prefix_of_mem {ls : List Text} {t : Text} (h : t ∈ indents ls) : shared ls <+: t := by
  obtain ⟨u, us, hu⟩ := List.exists_cons_of_ne_nil (List.ne_nil_of_mem h)
  rw [shared_of_cons hu]
  rw [hu] at h
  exact Text.commonStart_prefix_of_le (least_le us h) (le_greatest us h)

theorem mem_indents {ls : List Text} {line : Text} (hl : line ∈ ls) (hb : Text.isBlankText line = false) :
    ofLine line ∈ indents ls :=
  List.mem_map_of_mem (List.mem_filter.mpr ⟨hl, by simp [hb]⟩)

/-- One line that is neither blank nor indented, and nothing is shared. -/
theorem shared_of_mem {ls : List Text} {line : Text} (hl : line ∈ ls) (hb : Text.isBlankText line = false)
    (hi : ofLine line = []) : shared ls = [] := by
  have hp := shared_prefix_of_mem (mem_indents hl hb)
  rwa [hi, List.prefix_nil] at hp

theorem indents_cons_of_blank {line : Text} (h : Text.isBlankText line = true) (ls : List Text) :
    indents (line :: ls) = indents ls := by
  unfold indents
  rw [List.filter_cons_of_neg (by simp [h])]

theorem indents_cons_of_nonblank {line : Text} (h : Text.isBlankText line = false) (ls : List Text) :
    indents (line :: ls) = ofLine line :: indents ls := by
  unfold indents
  rw [List.filter_cons_of_pos (by simp [h]), List.map_cons]

theorem indents_append (ls ms : List Text) : indents (ls ++ ms) = indents ls ++ indents ms := by
  simp [indents]

theorem indents_replicate_nil (n : Nat) : indents (List.replicate n []) = [] := by
  simp [indents, Text.isBlankText]

theorem shared_trim_newline (s : Text) : shared (Text.lines (Text.trim (· == '\n') s)) = shared (Text.lines s) := by
  obtain ⟨m, n, hl⟩ := Text.lines_trim_newline s
  have hi : indents (Text.lines s) = indents (Text.lines (Text.trim (· == '\n') s)) := by
    rw [hl, indents_append, indents_append, indents_replicate_nil, indents_replicate_nil, List.nil_append,
      List.append_nil]
  unfold shared
  rw [hi]

/-! ## Taking it off -/

theorem dropShared_append (p rest : Text) : dropShared p (p ++ rest) = rest := by
  rw [dropShared, Text.after?_append]
  rfl

theorem dropShared_suffix (p line : Text) : dropShared p line <:+ line := by
  unfold dropShared
  cases h : Text.after? p line with
  | none => exact List.dropWhile_suffix _
  | some rest =>
    rw [Text.after?_eq_some_iff.mp h]
    exact List.suffix_append p rest

theorem isBlankText_dropShared (p : Text) {line : Text} (h : Text.isBlankText line = true) :
    Text.isBlankText (dropShared p line) = true := by
  unfold Text.isBlankText at h ⊢
  rw [List.all_eq_true] at h ⊢
  exact fun c hc => h c ((dropShared_suffix p line).subset hc)

theorem eq_append_dropShared {p line : Text} (h : p <+: ofLine line) :
    line = p ++ dropShared p line ∧ ofLine line = p ++ ofLine (dropShared p line) ∧
      Text.isBlankText (dropShared p line) = Text.isBlankText line := by
  obtain ⟨rest, hr⟩ := h.trans (List.takeWhile_prefix _)
  subst hr
  have hp : ∀ c ∈ p, Text.isIndent c = true := fun c hc => List.mem_takeWhile_imp (h.subset hc)
  have hb : Text.isBlankText p = true := by
    unfold Text.isBlankText
    rw [List.all_eq_true]
    exact fun c hc => Text.isBlank_of_isIndent (hp c hc)
  rw [dropShared_append]
  refine ⟨rfl, List.takeWhile_append_of_pos hp, ?_⟩
  simp [Text.isBlankText_append, hb]

theorem indents_eq_map_append {p : Text} {ls : List Text}
    (h : ∀ line ∈ ls, Text.isBlankText line = false → p <+: ofLine line) :
    indents ls = (indents (ls.map (dropShared p))).map (p ++ ·) := by
  induction ls with
  | nil => rfl
  | cons line ls ih =>
    rw [List.forall_mem_cons] at h
    rw [List.map_cons]
    by_cases hb : Text.isBlankText line = true
    · rw [indents_cons_of_blank hb, indents_cons_of_blank (isBlankText_dropShared p hb), ih h.2]
    · rw [Bool.not_eq_true] at hb
      obtain ⟨-, ho, he⟩ := eq_append_dropShared (h.1 hb)
      rw [indents_cons_of_nonblank hb, indents_cons_of_nonblank (he.trans hb), List.map_cons, ih h.2, ho]

theorem shared_eq_append {p : Text} {ls : List Text}
    (h : ∀ line ∈ ls, Text.isBlankText line = false → p <+: ofLine line) (hne : indents ls ≠ []) :
    shared ls = p ++ shared (ls.map (dropShared p)) := by
  have hls := indents_eq_map_append h
  cases hi : indents (ls.map (dropShared p)) with
  | nil =>
    rw [hi] at hls
    exact absurd hls hne
  | cons t ts =>
    rw [hi, List.map_cons] at hls
    rw [shared_of_cons hls, least_map_append, greatest_map_append, Text.commonStart_append, ← shared_of_cons hi]

/-- **Nothing is shared any more.** -/
theorem shared_map_dropShared (ls : List Text) : shared (ls.map (dropShared (shared ls))) = [] := by
  have hp : ∀ line ∈ ls, Text.isBlankText line = false → shared ls <+: ofLine line :=
    fun line hl hb => shared_prefix_of_mem (mem_indents hl hb)
  by_cases hne : indents ls = []
  · rw [indents_eq_map_append hp, List.map_eq_nil_iff] at hne
    exact shared_of_nil hne
  · -- the whole of what is shared is already in front of the least and the greatest
    exact List.self_eq_append_right.mp (shared_eq_append hp hne)

theorem lines_strip (s : Text) :
    Text.lines (strip s) = (Text.lines s).map (dropShared (shared (Text.lines s))) := by
  unfold strip
  by_cases hs : shared (Text.lines s) = []
  · have hd : dropShared [] = id := rfl
    simp [hs, hd]
  · have hn : ∀ line ∈ (Text.lines s).map (dropShared (shared (Text.lines s))), '\n' ∉ line := by
      intro line hl hm
      obtain ⟨l, hl', rfl⟩ := List.mem_map.mp hl
      exact Text.not_mem_of_mem_lines hl' ((dropShared_suffix _ l).subset hm)
    have he : (shared (Text.lines s)).isEmpty = false := by simpa using hs
    simp only [he, Bool.false_eq_true, if_false]
    exact Text.lines_unlines (by simpa using Text.lines_ne_nil s) hn

theorem strip_of_shared {s : Text} (h : shared (Text.lines s) = []) : strip s = s := by
  simp [strip, h]

theorem shared_strip (s : Text) : shared (Text.lines (strip s)) = [] := by
  rw [lines_strip]
  exact shared_map_dropShared _

theorem strip_strip (s : Text) : strip (strip s) = strip s := strip_of_shared (shared_strip s)

end Indent

end PatternBook
