import PatternBook.Proofs.ParameterLemmas

/-!
# The grammar of declarations

A declaration has a balanced type in braces, a name with or without brackets and a default, and a remark.
`Declares` says so of the text alone, without a reader: where the brackets end, or the name if there are none,
is fixed by the first bracket that closes and by the first blank. A text is read exactly if it declares
something, and then what is read are its parts, trimmed.
-/

namespace PatternBook

namespace Parameter

/-! ## Braces -/

theorem cutBrace?_of_map {c : Char} {depth : Nat} {s type rest : Text}
    (h : (cutBrace? depth s).map (fun (type, rest) => (c :: type, rest)) = some (type, rest)) :
    ∃ t, type = c :: t ∧ cutBrace? depth s = some (t, rest) := by
  obtain ⟨⟨t, r⟩, ht, he⟩ := Option.map_eq_some_iff.mp h
  cases he
  exact ⟨t, rfl, ht⟩

theorem cutBrace?_sound : ∀ {s type rest : Text} {depth : Nat}, cutBrace? depth s = some (type, rest) →
    s = type ++ '}' :: rest ∧ BalancedFrom depth type
  | [], _, _, _, h => by simp [cutBrace?] at h
  | c :: s, type, rest, depth, h => by
    by_cases ho : c = '{'
    · subst ho
      rw [cutBrace?_open] at h
      obtain ⟨t, rfl, ht⟩ := cutBrace?_of_map h
      obtain ⟨rfl, hb⟩ := cutBrace?_sound ht
      exact ⟨rfl, balancedFrom_open.mpr hb⟩
    · by_cases hc : c = '}'
      · subst hc
        cases depth with
        | zero =>
          cases h
          exact ⟨rfl, balancedFrom_zero.mpr (by decide)⟩
        | succ depth =>
          rw [cutBrace?_close] at h
          obtain ⟨t, rfl, ht⟩ := cutBrace?_of_map h
          obtain ⟨rfl, hb⟩ := cutBrace?_sound ht
          exact ⟨rfl, balancedFrom_close.mpr hb⟩
      · rw [cutBrace?_other ho hc] at h
        obtain ⟨t, rfl, ht⟩ := cutBrace?_of_map h
        obtain ⟨rfl, hb⟩ := cutBrace?_sound ht
        exact ⟨rfl, (balancedFrom_other ho hc).mpr hb⟩

theorem splitType?_iff {s type rest : Text} : splitType? s = some (type, rest) ↔
    s.dropWhile Text.isBlank = '{' :: (type ++ '}' :: rest) ∧ Balanced type := by
  unfold splitType?
  constructor
  · intro h
    split at h
    · rename_i inner hi
      obtain ⟨rfl, hb⟩ := cutBrace?_sound h
      exact ⟨hi, balancedFrom_zero.mp hb⟩
    · cases h
  · rintro ⟨hs, hb⟩
    rw [hs]
    exact cutBrace?_append rest (balancedFrom_zero.mpr hb)

def Encloses (s type rest : Text) : Prop :=
  s.dropWhile Text.isBlank = '{' :: (type ++ '}' :: rest) ∧ Balanced type

theorem balanced_close_inj {t t' r r' : Text} (ht : Balanced t) (ht' : Balanced t')
    (h : t ++ '}' :: r = t' ++ '}' :: r') : t = t' ∧ r = r' := by
  have hcut := cutBrace?_append r (balancedFrom_zero.mpr ht)
  rw [h, cutBrace?_append r' (balancedFrom_zero.mpr ht')] at hcut
  simpa [eq_comm] using hcut

theorem Encloses.unique {s t t' r r' : Text} (h : Encloses s t r) (h' : Encloses s t' r') : t = t' ∧ r = r' := by
  have he := h.1.symm.trans h'.1
  exact balanced_close_inj h.2 h'.2 (List.cons.inj he).2

/-- **The type is cut where its braces say.** It is split off exactly if a balanced text in braces stands in front,
and there is no other such cut. -/
theorem splitType?_encloses (s : Text) :
    (∀ type rest, splitType? s = some (type, rest) ↔ Encloses s type rest) ∧
      (∀ type rest type' rest', Encloses s type rest → Encloses s type' rest' → type = type' ∧ rest = rest') ∧
      (splitType? s = none ↔ ∀ type rest, ¬ Encloses s type rest) := by
  refine ⟨fun type rest => splitType?_iff, fun _ _ _ _ => Encloses.unique, ?_⟩
  rw [Option.eq_none_iff_forall_ne_some, Prod.forall]
  exact forall₂_congr fun type rest => not_congr splitType?_iff

def braces : Text := [' ', '{', 'a', '{', '}', '}', '}', 'b']

theorem splitType?_encloses_braces : Encloses braces ['a', '{', '}'] ['}', 'b'] ∧
    ∀ type rest, Encloses braces type rest → type = ['a', '{', '}'] ∧ rest = ['}', 'b'] := by
  have h : Encloses braces ['a', '{', '}'] ['}', 'b'] := ⟨by decide, by decide⟩
  exact ⟨h, fun type rest h' => (splitType?_encloses braces).2.1 type rest _ _ h' h⟩

/-! ## The front of what follows the type -/

/-- What is taken from the front of a text, and what is left: all up to the first bracket that closes, if the text
begins with a bracket and has one that closes, and else the longest run without blanks. -/
inductive Taken : Text → Text → Text → Prop
  | brackets {inner rest : Text} : ']' ∉ inner →
      Taken ('[' :: (inner ++ ']' :: rest)) ('[' :: (inner ++ [']'])) rest
  | run {spec rest : Text} : (∀ c ∈ spec, Text.isBlank c = false) → (∀ c ∈ rest.head?, Text.isBlank c = true) →
      (∀ t, spec ++ rest = '[' :: t → ']' ∉ t) → Taken (spec ++ rest) spec rest

theorem taken_splitName (s : Text) : Taken s (splitName s).1 (splitName s).2 := by
  by_cases h : ∃ t, s = '[' :: t ∧ ']' ∈ t
  · obtain ⟨t, rfl, ht⟩ := h
    obtain ⟨hn, hs⟩ := Text.cutAt_eq ']' t
    cases hc : (Text.cutAt ']' t).2 with
    | none =>
      rw [hc, Option.elim_none, List.append_nil] at hs
      exact absurd (hs ▸ ht) hn
    | some rest =>
      rw [hc, Option.elim_some] at hs
      rw [hs, splitName_brackets hn]
      exact .brackets hn
  · have hrun : ∀ t, s = '[' :: t → ']' ∉ t := fun t hs ht => h ⟨t, hs, ht⟩
    rw [splitName_of_run hrun]
    have ht := @Taken.run (s.takeWhile fun c => !Text.isBlank c) (s.dropWhile fun c => !Text.isBlank c)
    rw [List.takeWhile_append_dropWhile] at ht
    refine ht (fun c hc => by simpa using List.mem_takeWhile_imp hc) (fun c hc => ?_) hrun
    simpa using Text.head_dropWhile _ s c hc

theorem splitName_iff {s spec rest : Text} : splitName s = (spec, rest) ↔ Taken s spec rest := by
  constructor
  · intro h
    have ht := taken_splitName s
    rwa [h] at ht
  · intro h
    cases h with
    | brackets hn => exact splitName_brackets hn rest
    | run hspec hrest hrun => exact splitName_run hrest hspec hrun

/-! ## Name and default -/

def specOf (optional : Bool) (name : Text) (default : Option Text) : Text :=
  if optional then '[' :: (name ++ equals default ++ [']']) else name ++ equals default

theorem readName?_iff {s n : Text} {d : Option Text} : readName? s = some (n, d) ↔ ∃ name default,
    WellNamed name default ∧ s = name ++ equals default ∧ n = trimName name ∧ d = default.map Text.strip := by
  constructor
  · intro h
    obtain ⟨hn, hs⟩ := Text.cutAt_eq '=' s
    have he : (Text.cutAt '=' s).2.elim [] ('=' :: ·) = equals (Text.cutAt '=' s).2 := by
      cases (Text.cutAt '=' s).2 <;> rfl
    rw [he] at hs
    unfold readName? at h
    generalize Text.cutAt '=' s = parts at h hn hs
    obtain ⟨name, default⟩ := parts
    dsimp only at h hn hs
    split at h
    · cases h
    · rename_i hm
      cases h
      simp only [Bool.or_eq_true, not_or, List.isEmpty_iff, List.contains_iff_mem] at hm
      obtain ⟨⟨⟨hne, hl⟩, hr⟩, hd⟩ := hm
      refine ⟨name, default, ⟨hne, fun c hc => ⟨?_, ?_, ?_⟩, ?_⟩, hs, rfl, rfl⟩
      · rintro rfl; exact hn hc
      · rintro rfl; exact hl hc
      · rintro rfl; exact hr hc
      · rintro e rfl
        simpa using hd
  · rintro ⟨name, default, hw, rfl, rfl, rfl⟩
    exact readName?_equals hw

theorem readDeclaration?_iff {s n : Text} {d : Option Text} {o : Bool} : readDeclaration? s = some (n, d, o) ↔
    ∃ name default, WellNamed name default ∧ s = specOf o name default ∧ n = trimName name ∧
      d = default.map Text.strip := by
  constructor
  · intro h
    by_cases hb : s.head? = some '['
    · obtain ⟨inner, rfl⟩ := List.head?_eq_some_iff.mp hb
      obtain ⟨-, hs⟩ := Text.cutAt_eq ']' inner
      simp only [readDeclaration?] at h
      split at h
      · rename_i c hc
        rw [hc] at hs
        obtain ⟨⟨n', d'⟩, hr, he⟩ := Option.map_eq_some_iff.mp h
        cases he
        obtain ⟨name, default, hw, hcs, hn, hd⟩ := readName?_iff.mp hr
        refine ⟨name, default, hw, ?_, hn, hd⟩
        dsimp only at hs
        rw [hs, hcs]
        rfl
      · cases h
    · rw [readDeclaration?_bare hb] at h
      obtain ⟨⟨n', d'⟩, hr, he⟩ := Option.map_eq_some_iff.mp h
      cases he
      exact readName?_iff.mp hr
  · rintro ⟨name, default, hw, rfl, rfl, rfl⟩
    cases o with
    | true =>
      show readDeclaration? ('[' :: (name ++ equals default ++ [']'])) = _
      rw [readDeclaration?_brackets (bracket_not_mem_equals hw), readName?_equals hw]
      rfl
    | false =>
      show readDeclaration? (name ++ equals default) = _
      rw [readDeclaration?_bare (head?_name hw), readName?_equals hw]
      rfl

/-! ## Declarations -/

structure Parts where
  type : Text
  optional : Bool
  name : Text
  default : Option Text
  remark : Text

structure Declares (text : Text) (d : Parts) : Prop where
  type : Balanced d.type
  named : WellNamed d.name d.default
  layout : ∃ rest, text.dropWhile Text.isBlank = '{' :: (d.type ++ '}' :: rest) ∧
    Taken (rest.dropWhile Text.isBlank) (specOf d.optional d.name d.default) d.remark

def Remarks (remark description : Text) : Prop :=
  ∃ tail, (remark.dropWhile Text.isBlank = '-' :: tail ∨
      remark.dropWhile Text.isBlank = tail ∧ tail.head? ≠ some '-') ∧
    description = Text.strip tail

structure Parts.Gives (d : Parts) (q : Parameter) : Prop where
  name : q.name = trimName d.name
  type : q.type = Text.strip d.type
  optional : q.optional = d.optional
  default : q.default = d.default.map Text.strip
  description : Remarks d.remark q.description

theorem remarks_iff {remark description : Text} :
    Remarks remark description ↔ description = Text.strip (dropDash remark) := by
  unfold Remarks dropDash
  cases hr : remark.dropWhile Text.isBlank with
  | nil => simp
  | cons c tail =>
    by_cases hc : c = '-'
    · subst hc
      simp
    · simp [hc]

theorem read?_iff {text : Text} {q : Parameter} : read? text = some q ↔ ∃ d, Declares text d ∧ d.Gives q := by
  unfold read?
  constructor
  · intro h
    split at h
    · cases h
    · rename_i type rest ht
      obtain ⟨hs, hb⟩ := splitType?_iff.mp ht
      dsimp only at h
      split at h
      · cases h
      · rename_i n d o hd
        cases h
        obtain ⟨name, default, hw, hspec, hn, hdef⟩ := readDeclaration?_iff.mp hd
        have htaken := taken_splitName (rest.dropWhile Text.isBlank)
        rw [hspec] at htaken
        exact ⟨⟨type, o, name, default, _⟩, ⟨hb, hw, rest, hs, htaken⟩, ⟨hn, rfl, rfl, hdef, remarks_iff.mpr rfl⟩⟩
  · rintro ⟨⟨type, o, name, default, remark⟩, ⟨hb, hw, rest, hs, htaken⟩, ⟨hn, htype, ho, hdef, hdesc⟩⟩
    obtain ⟨qname, qtype, qdescription, qdefault, qoptional⟩ := q
    dsimp only at *
    rw [splitType?_iff.mpr ⟨hs, hb⟩]
    dsimp only
    rw [splitName_iff.mpr htaken]
    dsimp only
    rw [readDeclaration?_iff.mpr ⟨name, default, hw, rfl, rfl, rfl⟩, hn, htype, ho, hdef, remarks_iff.mp hdesc]

theorem exists_gives (d : Parts) : ∃ q, d.Gives q :=
  ⟨⟨trimName d.name, Text.strip d.type, Text.strip (dropDash d.remark), d.default.map Text.strip, d.optional⟩,
    ⟨rfl, rfl, rfl, rfl, remarks_iff.mpr rfl⟩⟩

/-- **The reader accepts its grammar.** A text that declares something is read, as the parts it has, trimmed. Any
other text is reported as it stands, with the pattern. -/
theorem read_iff_declares (pattern : Option Text) (text : Text) :
    (∀ q, read pattern text = .ok q ↔ ∃ d, Declares text d ∧ d.Gives q) ∧
      ∀ e, read pattern text = .error e ↔ (¬ ∃ d, Declares text d) ∧ e = ⟨text, pattern⟩ := by
  unfold read
  cases hr : read? text with
  | none =>
    have hno : ¬ ∃ d, Declares text d := by
      rintro ⟨d, hd⟩
      obtain ⟨q, hq⟩ := exists_gives d
      rw [read?_iff.mpr ⟨d, hd, hq⟩] at hr
      cases hr
    refine ⟨fun q => ⟨nofun, ?_⟩, fun e => ?_⟩
    · rintro ⟨d, hd, -⟩
      exact absurd ⟨d, hd⟩ hno
    · simp [hno, eq_comm]
  | some q =>
    obtain ⟨d, hd, -⟩ := read?_iff.mp hr
    refine ⟨fun q' => ?_, fun e => ⟨nofun, fun h => absurd ⟨d, hd⟩ h.1⟩⟩
    rw [← read?_iff, hr]
    simp

/-- A default in brackets has blanks, equals signs and a bracket that opens. Without the bracket that closes
there is no declaration. -/
theorem read_iff_declares_brackets :
    (∃ d, Declares " {T{}} [a=[b = c]- -x".toList d ∧
      d.Gives ⟨"a".toList, "T{}".toList, "-x".toList, some "[b = c".toList, true⟩) ∧
      ¬ ∃ d, Declares "{T} [a=[b = c".toList d :=
  ⟨((read_iff_declares none _).1 _).mp (by decide),
    (((read_iff_declares none _).2 ⟨"{T} [a=[b = c".toList, none⟩).mp (by decide)).1⟩

end Parameter

end PatternBook
