import Mathlib.Data.List.Infix
import PatternBook.Parameter
import PatternBook.Proofs.TextLemmas

/-!
# Laws of parameter declarations

The type ends at the brace that closes the first, which is the one behind a balanced text. A declaration
is read part by part: each lemma gives the part and what is left behind it.
-/

namespace PatternBook

/-- No beginning of the text closes more braces than it opens, and the text closes all of them. -/
def Balanced (s : Text) : Prop :=
  (∀ t ∈ s.inits, t.count '}' ≤ t.count '{') ∧ s.count '}' = s.count '{'

instance (s : Text) : Decidable (Balanced s) := inferInstanceAs (Decidable (_ ∧ _))

def BalancedFrom (depth : Nat) (s : Text) : Prop :=
  (∀ t, t <+: s → t.count '}' ≤ t.count '{' + depth) ∧ s.count '}' = s.count '{' + depth

theorem balancedFrom_zero {s : Text} : BalancedFrom 0 s ↔ Balanced s := by
  simp [BalancedFrom, Balanced]

theorem balancedFrom_cons {depth : Nat} {c : Char} {s : Text} : BalancedFrom depth (c :: s) ↔
    (∀ t, t <+: s → (c :: t).count '}' ≤ (c :: t).count '{' + depth) ∧
      (c :: s).count '}' = (c :: s).count '{' + depth := by
  refine and_congr_left fun _ => ⟨fun h t ht => h _ ((List.prefix_cons_inj c).mpr ht), fun h t ht => ?_⟩
  rcases List.prefix_cons_iff.mp ht with rfl | ⟨u, rfl, hu⟩
  · simp
  · exact h u hu

theorem balancedFrom_open {depth : Nat} {s : Text} :
    BalancedFrom depth ('{' :: s) ↔ BalancedFrom (depth + 1) s := by
  rw [balancedFrom_cons]
  refine and_congr (forall₂_congr fun t _ => ?_) ?_
  · simp
    omega
  · simp
    omega

theorem balancedFrom_close {depth : Nat} {s : Text} :
    BalancedFrom (depth + 1) ('}' :: s) ↔ BalancedFrom depth s := by
  rw [balancedFrom_cons]
  refine and_congr (forall₂_congr fun t _ => ?_) ?_
  · simp
    omega
  · simp
    omega

theorem not_balancedFrom_close (s : Text) : ¬ BalancedFrom 0 ('}' :: s) := by
  intro h
  have hone := h.1 ['}'] ⟨s, rfl⟩
  simp at hone

theorem balancedFrom_other {depth : Nat} {c : Char} {s : Text} (ho : c ≠ '{') (hc : c ≠ '}') :
    BalancedFrom depth (c :: s) ↔ BalancedFrom depth s := by
  rw [balancedFrom_cons]
  refine and_congr (forall₂_congr fun t _ => ?_) ?_
  · simp [ho, hc]
  · simp [ho, hc]

theorem balanced_of_not_mem {s : Text} (ho : '{' ∉ s) (hc : '}' ∉ s) : Balanced s := by
  refine ⟨fun t ht => ?_, by simp [List.count_eq_zero.mpr ho, List.count_eq_zero.mpr hc]⟩
  have ht : '}' ∉ t := fun hm => hc (((List.mem_inits t s).mp ht).subset hm)
  simp [List.count_eq_zero.mpr ht]

theorem Balanced.append {a b : Text} (ha : Balanced a) (hb : Balanced b) : Balanced (a ++ b) := by
  rw [← balancedFrom_zero] at ha hb ⊢
  obtain ⟨hap, hac⟩ := ha
  obtain ⟨hbp, hbc⟩ := hb
  refine ⟨fun t ht => ?_, by simp [hac, hbc]⟩
  -- the beginning ends in the first text, or holds all of it
  rcases List.prefix_or_prefix_of_prefix ht (List.prefix_append a b) with h | ⟨u, rfl⟩
  · exact hap t h
  · have hu := hbp u ((List.prefix_append_right_inj a).mp ht)
    simp [hac] at hu ⊢
    omega

namespace Parameter

/-! ## The type -/

theorem cutBrace?_open (depth : Nat) (s : Text) :
    cutBrace? depth ('{' :: s) = (cutBrace? (depth + 1) s).map fun (type, rest) => ('{' :: type, rest) := by
  cases depth <;> rfl

theorem cutBrace?_close (depth : Nat) (s : Text) :
    cutBrace? (depth + 1) ('}' :: s) = (cutBrace? depth s).map fun (type, rest) => ('}' :: type, rest) :=
  rfl

theorem cutBrace?_other {c : Char} (ho : c ≠ '{') (hc : c ≠ '}') (depth : Nat) (s : Text) :
    cutBrace? depth (c :: s) = (cutBrace? depth s).map fun (type, rest) => (c :: type, rest) := by
  cases depth <;> simp [cutBrace?, ho, hc]

theorem cutBrace?_append (rest : Text) : ∀ {s : Text} {depth : Nat}, BalancedFrom depth s →
    cutBrace? depth (s ++ '}' :: rest) = some (s, rest)
  | [], depth, h => by
    have : depth = 0 := by simpa using h.2.symm
    rw [this]; rfl
  | c :: s, depth, h => by
    rw [List.cons_append]
    by_cases ho : c = '{'
    · subst ho
      rw [cutBrace?_open, cutBrace?_append rest (balancedFrom_open.mp h)]; rfl
    · by_cases hc : c = '}'
      · subst hc
        cases depth with
        | zero => exact absurd h (not_balancedFrom_close s)
        | succ depth => rw [cutBrace?_close, cutBrace?_append rest (balancedFrom_close.mp h)]; rfl
      · rw [cutBrace?_other ho hc, cutBrace?_append rest ((balancedFrom_other ho hc).mp h)]; rfl

/-! ## The name -/

theorem splitName_brackets {inner : Text} (h : ']' ∉ inner) (rest : Text) :
    splitName ('[' :: (inner ++ ']' :: rest)) = ('[' :: (inner ++ [']']), rest) := by
  have hcut : Text.cutAt ']' ('[' :: (inner ++ ']' :: rest)) = ('[' :: inner, some rest) :=
    Text.cutAt_append (s := '[' :: inner) rest (by simp [h])
  simp only [splitName, hcut, List.cons_append]

theorem splitName_of_run {s : Text} (h : ∀ t, s = '[' :: t → ']' ∉ t) :
    splitName s = (s.takeWhile fun c => !Text.isBlank c, s.dropWhile fun c => !Text.isBlank c) := by
  unfold splitName
  split
  · rename_i t before rest hcut
    have hn : ']' ∉ '[' :: t := by simpa using h t rfl
    rw [Text.cutAt_of_not_mem hn] at hcut
    cases hcut
  · rfl

section
variable {name rest : Text} (hr : ∀ c ∈ rest.head?, Text.isBlank c = true)
include hr

theorem splitName_run (hn : ∀ c ∈ name, Text.isBlank c = false) (hrun : ∀ t, name ++ rest = '[' :: t → ']' ∉ t) :
    splitName (name ++ rest) = (name, rest) := by
  have hin : ∀ c ∈ name, (!Text.isBlank c) = true := fun c hc => by simp [hn c hc]
  have hout : ∀ c ∈ rest.head?, (!Text.isBlank c) = false := fun c hc => by simp [hr c hc]
  rw [splitName_of_run hrun, Text.takeWhile_run hin hout, Text.dropWhile_run hin hout]

theorem splitName_bare (hn : ∀ c ∈ name, Text.isBlank c = false ∧ c ≠ '[') :
    splitName (name ++ rest) = (name, rest) := by
  refine splitName_run hr (fun c hc => (hn c hc).1) fun s hs => ?_
  cases name with
  | nil =>
    rw [List.nil_append] at hs
    exact absurd (hr '[' (by rw [hs]; rfl)) (by decide)
  | cons c name => exact absurd (List.cons.inj hs).1 (hn c (by simp)).2

end

theorem trimName_of_trimmed {name : Text} (hne : name ≠ []) (h : Text.Trimmed Text.isBlank name) :
    trimName name = name := by
  rw [trimName, Text.isBlankText_eq_false hne h.1, if_neg Bool.false_ne_true]
  exact Text.trim_of_trimmed h

def equals : Option Text → Text
  | none => []
  | some d => '=' :: d

structure WellNamed (name : Text) (default : Option Text) : Prop where
  name_ne : name ≠ []
  name_marks : ∀ c ∈ name, c ≠ '=' ∧ c ≠ '[' ∧ c ≠ ']'
  default_marks : ∀ d ∈ default, ']' ∉ d

theorem cutAt_equals {name : Text} (h : '=' ∉ name) (default : Option Text) :
    Text.cutAt '=' (name ++ equals default) = (name, default) := by
  cases default with
  | none => rw [equals, List.append_nil]; exact Text.cutAt_of_not_mem h
  | some d => exact Text.cutAt_append d h

section
variable {name : Text} {default : Option Text} (h : WellNamed name default)
include h

theorem readName?_equals : readName? (name ++ equals default) = some (trimName name, default.map Text.strip) := by
  have heq : '=' ∉ name := fun hm => (h.name_marks _ hm).1 rfl
  have hl : '[' ∉ name := fun hm => (h.name_marks _ hm).2.1 rfl
  have hr : ']' ∉ name := fun hm => (h.name_marks _ hm).2.2 rfl
  have hd : default.any (·.contains ']') = false := by
    cases hd : default with
    | none => rfl
    | some d => simpa using h.default_marks d hd
  simp only [readName?, cutAt_equals heq, hd]
  simp [h.name_ne, hl, hr]

theorem bracket_not_mem_equals : ']' ∉ name ++ equals default := by
  rw [List.mem_append, not_or]
  refine ⟨fun hm => (h.name_marks _ hm).2.2 rfl, ?_⟩
  cases hd : default with
  | none => simp [equals]
  | some d => simpa [equals] using h.default_marks d hd

theorem head?_name : (name ++ equals default).head? ≠ some '[' := by
  obtain ⟨c, t, rfl⟩ := List.exists_cons_of_ne_nil h.name_ne
  have hc := (h.name_marks c (List.mem_cons_self ..)).2.1
  simpa using hc

end

theorem readDeclaration?_brackets {inner : Text} (h : ']' ∉ inner) :
    readDeclaration? ('[' :: (inner ++ [']'])) =
      (readName? inner).map fun (name, default) => (name, default, true) := by
  simp only [readDeclaration?, Text.cutAt_append [] h]

theorem readDeclaration?_bare {s : Text} (h : s.head? ≠ some '[') :
    readDeclaration? s = (readName? s).map fun (name, default) => (name, default, false) := by
  unfold readDeclaration?
  split
  · simp at h
  · rfl

end Parameter

end PatternBook
