import PatternBook.Proofs.GrammarSound

/-!
# Layouts and names of declarations

Blanks may stand almost anywhere in a declaration. A layout says where they stand, and whether there is a
dash. Written in any layout, a parameter is read back: the parts that the grammar finds are those written,
with the layout's blanks around them, and these are trimmed off. The one part that is not always trimmed is the
name: brackets with only blanks in the place of a name declare a blank one.
-/

namespace PatternBook

abbrev Blanks := { w : Text // ∀ c ∈ w, Text.isBlank c = true }

theorem Text.ne_of_isBlank {c d : Char} (hc : isBlank c = true) (hd : isBlank d = false) : c ≠ d := by
  rintro rfl
  simp [hc] at hd

theorem Text.isBlank_replicate (n : Nat) : ∀ c ∈ List.replicate n ' ', isBlank c = true := by
  intro c hc
  rw [List.eq_of_mem_replicate hc]
  rfl

namespace Blanks

def spaces (n : Nat) : Blanks := ⟨List.replicate n ' ', Text.isBlank_replicate n⟩

theorem not_mem (w : Blanks) {c : Char} (hc : Text.isBlank c = false) : c ∉ w.1 := by
  intro hm
  simp [w.2 c hm] at hc

theorem balanced (w : Blanks) : Balanced w.1 := by
  apply balanced_of_not_mem
  · exact w.not_mem (by decide)
  · exact w.not_mem (by decide)

theorem mem_around {l r : Blanks} {s : Text} {c : Char} (h : c ∈ l.1 ++ s ++ r.1) :
    Text.isBlank c = true ∨ c ∈ s := by
  rcases List.mem_append.mp h with h | h
  · rcases List.mem_append.mp h with h | h
    · exact .inl (l.2 c h)
    · exact .inr h
  · exact .inl (r.2 c h)

theorem strip_around (l r : Blanks) (s : Text) : Text.strip (l.1 ++ s ++ r.1) = Text.strip s := by
  rw [List.append_assoc, Text.strip_append l.2]
  exact Text.trim_append_end r.2

theorem strip_around_trimmed (l r : Blanks) {s : Text} (hs : Text.Trimmed Text.isBlank s) :
    Text.strip (l.1 ++ s ++ r.1) = s := by
  rw [strip_around, Text.strip_of_trimmed hs]

end Blanks

namespace Parameter

theorem read_eq_ok_iff {pattern : Option Text} {text : Text} {q : Parameter} :
    read pattern text = .ok q ↔ read? text = some q := by
  unfold read
  cases read? text with
  | none => simp
  | some p => simp

/-! ## Layouts -/

/-- Where blanks stand in a declaration, and whether there is a dash before the description. The blanks inside
the brackets are only written if there are brackets, and those around the default only if there is one. -/
structure Layout where
  front : Blanks
  beforeType : Blanks
  afterType : Blanks
  beforeSpec : Blanks
  beforeName : Blanks
  afterName : Blanks
  beforeDefault : Blanks
  afterDefault : Blanks
  afterSpec : Blanks
  dash : Bool
  beforeDescription : Blanks

/-- A parameter whose parts can be told apart in a declaration. The type need not be trimmed. -/
structure Declarable (q : Parameter) : Prop where
  type : Balanced q.type
  named : WellNamed q.name q.default
  name : Text.Trimmed Text.isBlank q.name
  default : ∀ d ∈ q.default, Text.Trimmed Text.isBlank d
  description : Text.Trimmed Text.isBlank q.description
  bare : q.optional = false → q.default = none ∧ ∀ c ∈ q.name, Text.isBlank c = false

namespace Layout

def parts (l : Layout) (q : Parameter) : Parts where
  type := l.beforeType ++ q.type ++ l.afterType
  optional := q.optional
  name := if q.optional then l.beforeName ++ q.name ++ l.afterName else q.name
  default := q.default.map fun d => l.beforeDefault ++ d ++ l.afterDefault
  remark := l.afterSpec ++ (if l.dash then ['-'] else []) ++ l.beforeDescription ++ q.description

def spec (l : Layout) (q : Parameter) : Text := specOf q.optional (l.parts q).name (l.parts q).default

def write (l : Layout) (q : Parameter) : Text :=
  l.front ++ '{' :: ((l.parts q).type ++ '}' :: (l.beforeSpec ++ l.spec q ++ (l.parts q).remark))

/-- A description that begins with a dash has another in front of it, and what follows a name without brackets is
set off from it. -/
structure Fits (l : Layout) (q : Parameter) : Prop where
  dash : l.dash = false → q.description.head? ≠ some '-'
  gap : q.optional = false → l.afterSpec.1 = [] → l.dash = false ∧ q.description = []

theorem blank_remark {l : Layout} {q : Parameter} (hl : l.Fits q) (ho : q.optional = false) :
    ∀ c ∈ (l.parts q).remark.head?, Text.isBlank c = true := by
  intro c hc
  simp only [parts] at hc
  by_cases hgap : l.afterSpec.1 = []
  · obtain ⟨hdash, hempty⟩ := hl.gap ho hgap
    rw [hgap, hdash, hempty] at hc
    apply l.beforeDescription.2
    simpa using List.mem_of_mem_head? hc
  · rw [List.append_assoc, List.append_assoc, List.head?_append_of_ne_nil _ hgap] at hc
    exact l.afterSpec.2 c (List.mem_of_mem_head? hc)

section
variable (l : Layout) {q : Parameter} (hq : q.Declarable)
include hq

theorem wellNamed_parts : WellNamed (l.parts q).name (l.parts q).default := by
  obtain ⟨hne, hmarks, hdefault⟩ := hq.named
  refine ⟨?_, fun c hc => ?_, fun d hd => ?_⟩
  · simp only [parts]
    split <;> simp [hne]
  · simp only [parts] at hc
    split at hc
    · rcases Blanks.mem_around hc with hb | hc
      · refine ⟨?_, ?_, ?_⟩ <;> exact Text.ne_of_isBlank hb (by decide)
      · exact hmarks c hc
    · exact hmarks c hc
  · obtain ⟨e, he, rfl⟩ := Option.map_eq_some_iff.mp hd
    intro hm
    rcases Blanks.mem_around hm with hb | hm
    · exact absurd hb (by decide)
    · exact hdefault e he hm

theorem trimName_parts : trimName (l.parts q).name = q.name := by
  have hne := hq.named.name_ne
  simp only [parts]
  split
  · have hb : Text.isBlankText (l.beforeName.1 ++ q.name ++ l.afterName.1) = false := by
      simp [Text.isBlankText_append, Text.isBlankText_eq_false hne hq.name.1]
    rw [trimName, hb, if_neg Bool.false_ne_true]
    exact Blanks.strip_around_trimmed _ _ hq.name
  · exact trimName_of_trimmed hne hq.name

theorem strip_default : (l.parts q).default.map Text.strip = q.default := by
  simp only [parts, Option.map_map]
  cases hd : q.default with
  | none => rfl
  | some d => exact congrArg some (Blanks.strip_around_trimmed _ _ (hq.default d hd))

variable (hl : l.Fits q)
include hl

theorem taken_spec : Taken ((l.beforeSpec ++ l.spec q ++ (l.parts q).remark).dropWhile Text.isBlank) (l.spec q)
    (l.parts q).remark := by
  rw [List.append_assoc, List.dropWhile_append_of_pos l.beforeSpec.2]
  cases ho : q.optional with
  | true =>
    have hs : l.spec q = '[' :: ((l.parts q).name ++ equals (l.parts q).default ++ [']']) := by
      simp [spec, specOf, ho]
    rw [hs, List.cons_append, List.dropWhile_cons_of_neg (by decide), List.append_assoc, List.singleton_append]
    exact .brackets (bracket_not_mem_equals (l.wellNamed_parts hq))
  | false =>
    obtain ⟨hnone, hrun⟩ := hq.bare ho
    have hs : l.spec q = q.name := by simp [spec, specOf, parts, equals, ho, hnone]
    have hhead : ∀ c ∈ (q.name ++ (l.parts q).remark).head?, Text.isBlank c = false := by
      rw [List.head?_append_of_ne_nil _ hq.named.name_ne]
      exact hq.name.1
    rw [hs, Text.dropWhile_of_head hhead, ← splitName_iff]
    apply splitName_bare (blank_remark hl ho)
    exact fun c hc => ⟨hrun c hc, (hq.named.name_marks c hc).2.1⟩

theorem declares_write : Declares (l.write q) (l.parts q) := by
  refine ⟨?_, l.wellNamed_parts hq, l.beforeSpec ++ l.spec q ++ (l.parts q).remark, ?_, l.taken_spec hq hl⟩
  · exact (l.beforeType.balanced.append hq.type).append l.afterType.balanced
  · rw [write, List.dropWhile_append_of_pos l.front.2, List.dropWhile_cons_of_neg (by decide)]

theorem remarks_parts : Remarks (l.parts q).remark q.description := by
  have hstrip : Text.strip q.description = q.description := Text.strip_of_trimmed hq.description
  cases hd : l.dash with
  | true =>
    refine ⟨l.beforeDescription ++ q.description, .inl ?_, ?_⟩
    · simp only [parts, hd, if_true, List.append_assoc]
      rw [List.dropWhile_append_of_pos l.afterSpec.2, List.singleton_append, List.dropWhile_cons_of_neg (by decide)]
    · rw [Text.strip_append l.beforeDescription.2, hstrip]
  | false =>
    refine ⟨q.description, .inr ⟨?_, hl.dash hd⟩, hstrip.symm⟩
    simp only [parts, hd, Bool.false_eq_true, if_false, List.append_nil, List.append_assoc]
    rw [List.dropWhile_append_of_pos l.afterSpec.2, List.dropWhile_append_of_pos l.beforeDescription.2,
      Text.dropWhile_of_head hq.description.1]

theorem gives_parts : (l.parts q).Gives { q with type := Text.strip q.type } where
  name := (l.trimName_parts hq).symm
  type := (Blanks.strip_around _ _ _).symm
  optional := rfl
  default := (l.strip_default hq).symm
  description := l.remarks_parts hq hl

end

/-- **The layout does not matter.** A parameter is read back from its declaration in any layout that fits it, with
its type trimmed. -/
theorem read_write (pattern : Option Text) (l : Layout) {q : Parameter} (hq : q.Declarable) (hl : l.Fits q) :
    read pattern (l.write q) = .ok { q with type := Text.strip q.type } := by
  rw [read_eq_ok_iff, read?_iff]
  exact ⟨l.parts q, l.declares_write hq hl, l.gives_parts hq hl⟩

def even (w : Blanks) : Layout := ⟨w, w, w, w, w, w, w, w, w, true, w⟩

theorem read_write_even :
    read none "  {  {T}  }  [  a b  =  [= c  ]  -  -d".toList =
      .ok ⟨"a b".toList, "{T}".toList, "-d".toList, some "[= c".toList, true⟩ := by
  -- the type has braces, the default an equals sign and a bracket, and the description begins with a dash
  have hq : Declarable ⟨"a b".toList, "{T}".toList, "-d".toList, some "[= c".toList, true⟩ :=
    ⟨by decide, ⟨by decide, by decide, by decide⟩, by decide, by decide, by decide, by decide⟩
  exact read_write none (even (.spaces 2)) hq ⟨by simp [even], by simp⟩

end Layout

/-! ## Names -/

structure ProperlyNamed (q : Parameter) : Prop where
  not_blank : Text.isBlankText q.name = false
  trimmed : Text.Trimmed Text.isBlank q.name
  marks : ∀ c ∈ q.name, c ≠ '=' ∧ c ≠ '[' ∧ c ≠ ']'
  bare : q.optional = false → ∀ c ∈ q.name, Text.isBlank c = false

/-- There are brackets, and only blanks in them where the name belongs. -/
def BlankNamed (text : Text) : Prop :=
  ∃ d, Declares text d ∧ d.optional = true ∧ Text.isBlankText d.name = true

theorem trimName_subset (s : Text) : trimName s ⊆ s := by
  unfold trimName
  split
  · intro c hc
    exact List.mem_of_getLast? (Option.mem_toList.mp hc)
  · exact (Text.trim_infix _ s).subset

theorem trimName_of_blank {s : Text} (hne : s ≠ []) (h : Text.isBlankText s = true) :
    ∃ c, Text.isBlank c = true ∧ trimName s = [c] := by
  refine ⟨s.getLast hne, List.all_eq_true.mp h _ (List.getLast_mem hne), ?_⟩
  rw [trimName, if_pos h, List.getLast?_eq_some_getLast hne]
  rfl

theorem trimName_of_not_blank {s : Text} (h : Text.isBlankText s = false) :
    Text.isBlankText (trimName s) = false ∧ Text.Trimmed Text.isBlank (trimName s) := by
  have htrim : Text.Trimmed Text.isBlank (Text.strip s) := Text.trimmed_trim _ s
  have hne : Text.strip s ≠ [] := by simp [Text.strip_eq_nil_iff, h]
  rw [trimName, h, if_neg Bool.false_ne_true]
  exact ⟨Text.isBlankText_eq_false hne htrim.1, htrim⟩

theorem Taken.unspaced {s spec rest : Text} (h : Taken s spec rest) (hb : spec.head? ≠ some '[') :
    ∀ c ∈ spec, Text.isBlank c = false := by
  cases h with
  | brackets => exact absurd rfl hb
  | run hspec => exact hspec

section
variable {text : Text} {d : Parts} {q : Parameter} (hd : Declares text d)
include hd

theorem unspaced_of_bare (ho : d.optional = false) : ∀ c ∈ d.name, Text.isBlank c = false := by
  obtain ⟨rest, -, ht⟩ := hd.layout
  have hs : specOf d.optional d.name d.default = d.name ++ equals d.default := by simp [specOf, ho]
  rw [hs] at ht
  intro c hc
  exact ht.unspaced (head?_name hd.named) c (List.mem_append_left _ hc)

theorem optional_of_blank (hb : Text.isBlankText d.name = true) : d.optional = true := by
  rw [← Bool.not_eq_false]
  intro ho
  obtain ⟨c, hc⟩ := List.exists_mem_of_ne_nil _ hd.named.name_ne
  have hblank := List.all_eq_true.mp hb c hc
  rw [unspaced_of_bare hd ho c hc] at hblank
  cases hblank

theorem properlyNamed_of_gives (hq : d.Gives q) (hb : Text.isBlankText d.name = false) : q.ProperlyNamed := by
  obtain ⟨hblank, htrim⟩ := trimName_of_not_blank hb
  have hsub := trimName_subset d.name
  constructor
  · rwa [hq.name]
  · rwa [hq.name]
  · intro c hc
    rw [hq.name] at hc
    exact hd.named.name_marks c (hsub hc)
  · intro ho c hc
    rw [hq.name] at hc
    rw [hq.optional] at ho
    exact unspaced_of_bare hd ho c (hsub hc)

theorem gives_of_read? (h : read? text = some q) : d.Gives q := by
  obtain ⟨q', hq'⟩ := exists_gives d
  rw [read?_iff.mpr ⟨d, hd, hq'⟩] at h
  cases h
  exact hq'

end

theorem BlankNamed.of_read? {text : Text} {q : Parameter} (hn : BlankNamed text) (h : read? text = some q) :
    q.optional = true ∧ ∃ c, Text.isBlank c = true ∧ q.name = [c] := by
  obtain ⟨d, hd, ho, hb⟩ := hn
  have hq := gives_of_read? hd h
  obtain ⟨c, hc, hname⟩ := trimName_of_blank hd.named.name_ne hb
  exact ⟨hq.optional.trans ho, c, hc, hq.name.trans hname⟩

/-- **Names are proper, but for blank ones.** What is read has a proper name unless the text has brackets with only
blanks in the place of the name. Then the name is a single blank. -/
theorem properlyNamed_iff {pattern : Option Text} {text : Text} {q : Parameter} (h : read pattern text = .ok q) :
    (q.ProperlyNamed ↔ ¬ BlankNamed text) ∧
      (BlankNamed text → q.optional = true ∧ ∃ c, Text.isBlank c = true ∧ q.name = [c]) := by
  rw [read_eq_ok_iff] at h
  refine ⟨⟨fun hp hn => ?_, fun hn => ?_⟩, fun hn => hn.of_read? h⟩
  · obtain ⟨-, c, hc, hname⟩ := hn.of_read? h
    have hnot := hp.not_blank
    simp [hname, Text.isBlankText, hc] at hnot
  · obtain ⟨d, hd, hq⟩ := read?_iff.mp h
    apply properlyNamed_of_gives hd hq
    rw [Bool.eq_false_iff]
    intro hb
    exact hn ⟨d, hd, optional_of_blank hd hb, hb⟩

theorem properlyNamed_iff_spaced :
    read none "{T} [ a b = c ]".toList = .ok ⟨"a b".toList, "T".toList, [], some "c".toList, true⟩ ∧
      ¬ BlankNamed "{T} [ a b = c ]".toList := by
  have h : read none "{T} [ a b = c ]".toList = .ok ⟨"a b".toList, "T".toList, [], some "c".toList, true⟩ := by
    decide
  exact ⟨h, (properlyNamed_iff h).1.mp ⟨by decide, by decide, by decide, by decide⟩⟩

theorem not_properlyNamed_blank :
    read none "{T} [ ]".toList = .ok ⟨" ".toList, "T".toList, [], none, true⟩ ∧
      ¬ ∀ text q, read none text = .ok q → q.ProperlyNamed := by
  have h : read none "{T} [ ]".toList = .ok ⟨" ".toList, "T".toList, [], none, true⟩ := by decide
  refine ⟨h, fun hall => ?_⟩
  exact absurd (hall _ _ h).not_blank (by decide)

end Parameter

end PatternBook
