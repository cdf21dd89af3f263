import Mathlib.Data.List.Forall2
import Mathlib.Order.Bounds.Basic
import PatternBook.Proofs.IndentLemmas

/-!
# The longest shared indentation

To compare the least and the greatest of the indentations is to compare all of them: what these two begin with
in common is the longest text that all begin with. So what is taken off is the longest run of spaces and tabs
that stands in front of every line, blank lines apart, and none is left to take off again.
-/

namespace PatternBook

theorem Text.prefix_commonStart : ∀ {q a b : Text}, q <+: a → q <+: b → q <+: commonStart a b
  | [], _, _, _, _ => List.nil_prefix
  | _ :: _, [], _, ha, _ => by simp at ha
  | _ :: _, _ :: _, [], _, hb => by simp at hb
  | e :: q, c :: a, d :: b, ha, hb => by
    obtain ⟨rfl, hqa⟩ := List.cons_prefix_cons.mp ha
    obtain ⟨rfl, hqb⟩ := List.cons_prefix_cons.mp hb
    simp [commonStart, prefix_commonStart hqa hqb]

namespace Indent

/-! ## Extremes -/

theorem foremost_mem (r : Text → Text → Bool) (ts : List Text) : ∀ t, foremost r t ts ∈ t :: ts := by
  induction ts with
  | nil => intro t; exact List.mem_singleton.mpr rfl
  | cons x ts ih =>
    intro t
    rw [foremost_cons]
    split
    · rcases List.mem_cons.mp (ih t) with h | h
      · simp [h]
      · simp [h]
    · exact List.mem_cons_of_mem t (ih x)

theorem isLeast_least (t : Text) (ts : List Text) : IsLeast {x | x ∈ t :: ts} (least t ts) :=
  ⟨foremost_mem _ ts t, fun _ hx => Text.le_iff.mp (least_le ts hx)⟩

theorem isGreatest_greatest (t : Text) (ts : List Text) : IsGreatest {x | x ∈ t :: ts} (greatest t ts) :=
  ⟨foremost_mem _ ts t, fun _ hx => Text.le_iff.mp (le_greatest ts hx)⟩

section
variable {ls : List Text}

theorem shared_eq_commonStart {a b : Text} (ha : IsLeast {t | t ∈ indents ls} a)
    (hb : IsGreatest {t | t ∈ indents ls} b) : shared ls = Text.commonStart a b := by
  obtain ⟨t, ts, ht⟩ := List.exists_cons_of_ne_nil (List.ne_nil_of_mem ha.1)
  rw [ht] at ha hb
  rw [shared_of_cons ht, ha.unique (isLeast_least t ts), hb.unique (isGreatest_greatest t ts)]

theorem prefix_shared {q : Text} (hne : indents ls ≠ []) (h : ∀ t ∈ indents ls, q <+: t) : q <+: shared ls := by
  obtain ⟨t, ts, ht⟩ := List.exists_cons_of_ne_nil hne
  rw [ht] at h
  rw [shared_of_cons ht]
  apply Text.prefix_commonStart
  · exact h _ (isLeast_least t ts).1
  · exact h _ (isGreatest_greatest t ts).1

/-! ## The longest lead -/

structure Leads (p : Text) (ls : List Text) : Prop where
  indent : ∀ c ∈ p, Text.isIndent c = true
  front : ∀ line ∈ ls, Text.strip line ≠ [] → p <+: line

/-- The longest of these, and none if all lines are blank. -/
structure IsLongestLead (p : Text) (ls : List Text) : Prop where
  leads : Leads p ls
  longest : (∃ line ∈ ls, Text.strip line ≠ []) → ∀ q, Leads q ls → q.length ≤ p.length
  blank : (∀ line ∈ ls, Text.strip line = []) → p = []

theorem prefix_ofLine {q line : Text} (hq : ∀ c ∈ q, Text.isIndent c = true) (h : q <+: line) :
    q <+: ofLine line := by
  obtain ⟨rest, rfl⟩ := h
  rw [ofLine, List.takeWhile_append_of_pos hq]
  exact List.prefix_append q _

theorem mem_indents_iff {t : Text} : t ∈ indents ls ↔ ∃ line ∈ ls, Text.strip line ≠ [] ∧ ofLine line = t := by
  simp [indents, Text.strip_eq_nil_iff, and_assoc]

theorem shared_prefix_ofLine {line : Text} (hl : line ∈ ls) (hb : Text.strip line ≠ []) :
    shared ls <+: ofLine line :=
  shared_prefix_of_mem (mem_indents_iff.mpr ⟨line, hl, hb, rfl⟩)

theorem leads_shared (ls : List Text) : Leads (shared ls) ls := by
  refine ⟨fun c hc => ?_, fun line hl hb => (shared_prefix_ofLine hl hb).trans (List.takeWhile_prefix _)⟩
  by_cases hne : indents ls = []
  · simp [shared_of_nil hne] at hc
  · obtain ⟨t, ht⟩ := List.exists_mem_of_ne_nil _ hne
    obtain ⟨line, hl, hb, -⟩ := mem_indents_iff.mp ht
    exact List.mem_takeWhile_imp ((shared_prefix_ofLine hl hb).subset hc)

theorem isLongestLead_shared (ls : List Text) : IsLongestLead (shared ls) ls where
  leads := leads_shared ls
  longest := by
    rintro ⟨line, hl, hb⟩ q hq
    apply List.IsPrefix.length_le
    apply prefix_shared (List.ne_nil_of_mem (mem_indents_iff.mpr ⟨line, hl, hb, rfl⟩))
    intro t ht
    obtain ⟨line', hl', hb', rfl⟩ := mem_indents_iff.mp ht
    exact prefix_ofLine hq.indent (hq.front line' hl' hb')
  blank := by
    intro h
    apply shared_of_nil
    rw [List.eq_nil_iff_forall_not_mem]
    intro t ht
    obtain ⟨line, hl, hb, -⟩ := mem_indents_iff.mp ht
    exact hb (h line hl)

theorem IsLongestLead.unique {p q : Text} (hp : IsLongestLead p ls) (hq : IsLongestLead q ls) : p = q := by
  by_cases h : ∃ line ∈ ls, Text.strip line ≠ []
  · obtain ⟨line, hl, hb⟩ := h
    have hpq := hq.longest ⟨line, hl, hb⟩ p hp.leads
    have hqp := hp.longest ⟨line, hl, hb⟩ q hq.leads
    have hprefix := List.prefix_of_prefix_length_le (hp.leads.front line hl hb) (hq.leads.front line hl hb) hpq
    exact hprefix.eq_of_length (Nat.le_antisymm hpq hqp)
  · simp only [not_exists, not_and, not_not] at h
    rw [hp.blank h, hq.blank h]

end

/-! ## Lines -/

/-- A line without its lead. Of a blank line it only counts that it stays blank. -/
def Loses (p line rest : Text) : Prop :=
  if Text.strip line = [] then Text.strip rest = [] else line = p ++ rest

theorem loses_dropShared {ls : List Text} {line : Text} (hl : line ∈ ls) :
    Loses (shared ls) line (dropShared (shared ls) line) := by
  unfold Loses
  split
  · rename_i hb
    rw [Text.strip_eq_nil_iff] at hb ⊢
    exact isBlankText_dropShared _ hb
  · rename_i hb
    exact (eq_append_dropShared (shared_prefix_ofLine hl hb)).1

/-- **The longest lead is taken off.** There is one longest lead, and it is what the least and the greatest
indentation begin with in common. Every line that is not blank loses it and nothing else. -/
theorem strip_takes_longestLead (s : Text) : ∃ p,
    (∀ q, IsLongestLead q (Text.lines s) ↔ q = p) ∧
      (∀ a b, IsLeast {t | t ∈ indents (Text.lines s)} a → IsGreatest {t | t ∈ indents (Text.lines s)} b →
        p = Text.commonStart a b) ∧
      (Text.lines (strip s)).length = (Text.lines s).length ∧
      List.Forall₂ (Loses p) (Text.lines s) (Text.lines (strip s)) ∧ (p = [] → strip s = s) := by
  have hlead := isLongestLead_shared (Text.lines s)
  refine ⟨shared (Text.lines s), fun q => ⟨fun hq => hq.unique hlead, ?_⟩, ?_, ?_, ?_, strip_of_shared⟩
  · rintro rfl
    exact hlead
  · intro a b ha hb
    exact shared_eq_commonStart ha hb
  · rw [lines_strip, List.length_map]
  · rw [lines_strip, List.forall₂_map_right_iff, List.forall₂_same]
    exact fun line hl => loses_dropShared hl

-- a blank line without the lead loses all of its own spaces and tabs, and no other blanks
example : strip "\t a\n\n \u00a0 \n\t\tb".toList = " a\n\n\u00a0 \n\tb".toList := by decide

/-- **Once is enough.** After the longest lead is taken off, the longest that is left is empty. -/
theorem strip_idempotent (s : Text) : strip (strip s) = strip s ∧ IsLongestLead [] (Text.lines (strip s)) := by
  have hlead := isLongestLead_shared (Text.lines (strip s))
  rw [shared_strip] at hlead
  exact ⟨strip_strip s, hlead⟩

end Indent

end PatternBook
