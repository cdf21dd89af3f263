import PatternBook.Proofs.ChunkSound
import PatternBook.Proofs.FieldLemmas
import PatternBook.Source

/-!
# What a reading can give

A reading gives one pattern for each name line, in order, with the name that stands on it; or else the settings
are strict, and it gives the error of a malformed declaration, under the last name before it. Nothing else can
come of it: no reader passes a name line that is not its own, and none asks the cursor for a line that is not
there.
-/

namespace PatternBook

/-! ## Runs in sequence -/

namespace Run

variable {ε α β : Type}

theorem done_bind (a : α) (f : α → Run ε β) : done a >>= f = f a := done_andThen a f

theorem note_bind (n : Notice) (a : α) (f : α → Run ε β) : note n a >>= f = (f a).after [n] := rfl

theorem after_bind (x : Run ε α) (f : α → Run ε β) (notices : List Notice) :
    x.after notices >>= f = (x >>= f).after notices := by
  obtain ⟨given, outcome⟩ := x
  cases outcome with
  | error e => rfl
  | ok a =>
    show andThen _ f = after (andThen _ f) notices
    simp [andThen, after]

section
variable {x : Run ε α} {f g : α → Run ε β}

theorem outcome_bind_of_ok {a : α} (h : x.outcome = .ok a) : (x >>= f).outcome = (f a).outcome := by
  obtain ⟨notices, outcome⟩ := x
  cases h
  rfl

theorem outcome_bind_of_error {e : ε} (h : x.outcome = .error e) : (x >>= f).outcome = .error e := by
  obtain ⟨notices, outcome⟩ := x
  cases h
  rfl

theorem of_outcome_bind_ok {b : β} (h : (x >>= f).outcome = .ok b) :
    ∃ a, x.outcome = .ok a ∧ (f a).outcome = .ok b := by
  cases ha : x.outcome with
  | error e =>
    rw [outcome_bind_of_error ha] at h
    cases h
  | ok a => exact ⟨a, rfl, by rwa [outcome_bind_of_ok ha] at h⟩

/-- What follows a run need only be known for what the run can give. -/
theorem bind_congr_of_ok (h : ∀ a, x.outcome = .ok a → f a = g a) : x >>= f = x >>= g := by
  obtain ⟨notices, outcome⟩ := x
  cases outcome with
  | error e => rfl
  | ok a =>
    have ha := h a rfl
    show andThen _ f = andThen _ g
    simp only [andThen, ha]

end

/-- What each step keeps is kept along the whole loop. -/
theorem foldlM_keeps {f : β → α → Run ε β} {P : β → Prop} {l : List α}
    (hstep : ∀ a ∈ l, ∀ {b c : β}, P b → (f b a).outcome = .ok c → P c) {b c : β} (hb : P b)
    (h : (l.foldlM f b).outcome = .ok c) : P c := by
  induction l generalizing b with
  | nil =>
    cases h
    exact hb
  | cons a l ih =>
    rw [List.forall_mem_cons] at hstep
    rw [List.foldlM_cons] at h
    obtain ⟨d, hd, hc⟩ := of_outcome_bind_ok h
    exact ih hstep.2 (hstep.1 hb hd) hc

end Run

/-! ## Storing an entry -/

namespace Entry

def named? : Entry → Option Text
  | name value => some value
  | _ => none

def described? : Entry → Option Text
  | description value => some value
  | _ => none

section
variable {d : Text}

theorem store_parameter {q : Parameter} (h : Parameter.read? d = some q) (s : Settings) (p : Pattern) :
    (parameter d).store s p = .done (p.addParameter q) := by
  simp only [store, Parameter.read, h]

theorem store_malformed (h : Parameter.read? d = none) (s : Settings) (p : Pattern) : (parameter d).store s p =
    if s.strict then .fail (.parameter ⟨d, some p.name⟩) else .note (.skippedParameter ⟨d, some p.name⟩) p := by
  simp only [store, Parameter.read, h]

end

/-- **One entry** is stored, with a new name or description only if it says one, or it is a malformed
declaration and the settings are strict. -/
theorem store_cases (s : Settings) (p : Pattern) (e : Entry) :
    (∃ q, (e.store s p).outcome = .ok q ∧ q.name = e.named?.getD p.name ∧
      q.description = e.described?.getD p.description) ∨
    ∃ d, e = .parameter d ∧ s.strict = true ∧ Parameter.read? d = none ∧
      e.store s p = .fail (.parameter ⟨d, some p.name⟩) := by
  cases e with
  | name value => exact .inl ⟨_, rfl, rfl, rfl⟩
  | description value => exact .inl ⟨_, rfl, rfl, rfl⟩
  | usage text blocks => exact .inl ⟨_, rfl, rfl, rfl⟩
  | metadata pair =>
    left
    obtain _ | ⟨key, value⟩ := pair
    · exact ⟨p, rfl, rfl, rfl⟩
    · refine ⟨_, rfl, ?_⟩
      split <;> exact ⟨rfl, rfl⟩
  | todo item =>
    refine .inl ⟨_, rfl, ?_⟩
    split <;> exact ⟨rfl, rfl⟩
  | parameter d =>
    cases hr : Parameter.read? d with
    | some q =>
      rw [store_parameter hr]
      exact .inl ⟨_, rfl, rfl, rfl⟩
    | none =>
      rw [store_malformed hr]
      by_cases hs : s.strict = true
      · exact .inr ⟨d, rfl, hs, hr, if_pos hs⟩
      · rw [if_neg hs]
        exact .inl ⟨p, rfl, rfl, rfl⟩

theorem store_of_ok {s : Settings} {p q : Pattern} {e : Entry} (h : (e.store s p).outcome = .ok q) :
    q.name = e.named?.getD p.name ∧ q.description = e.described?.getD p.description := by
  obtain ⟨r, hr, hq⟩ | ⟨d, -, -, -, hd⟩ := store_cases s p e
  · rw [h] at hr
    cases hr
    exact hq
  · rw [hd] at h
    cases h

end Entry

/-! ## Names on lines -/

namespace Field

def behind (f : Field) (line : Text) : Text := (line.dropWhile Tag.isDecoration).drop f.tag.length

def nameOn? (line : Text) : Option Text :=
  if ofLine? line = some name then some (Text.strip (name.behind line)) else none

theorem dropWhile_behind {f : Field} {line : Text} (h : ofLine? line = some f) :
    line.dropWhile Tag.isDecoration = f.tag ++ f.behind line ∧
      ∀ c ∈ (f.behind line).head?, Text.isWord c = false := by
  obtain ⟨rest, hl, hw⟩ := begins_iff.mp (begins_of_ofLine? h)
  have hrest : f.behind line = rest := by simp [behind, hl]
  rw [hrest]
  exact ⟨hl, hw⟩

theorem eq_tag_behind {f : Field} {line : Text} (h : ofLine? line = some f) :
    line = line.takeWhile Tag.isDecoration ++ (f.tag ++ f.behind line) := by
  rw [← (dropWhile_behind h).1, List.takeWhile_append_dropWhile]

theorem single_eq_behind {f : Field} {line : Text} (h : ofLine? line = some f) :
    single f.tag line = Text.strip (f.behind line) := by
  have hd : ∀ c ∈ line.takeWhile Tag.isDecoration, Tag.isDecoration c = true := fun _ hc =>
    List.mem_takeWhile_imp hc
  have hs := single_tag_append f (dropWhile_behind h).2 hd
  rwa [← eq_tag_behind h] at hs

theorem nameOn?_of_name {line : Text} (h : ofLine? line = some name) :
    nameOn? line = some (single name.tag line) := by
  rw [nameOn?, if_pos h, single_eq_behind h]

theorem nameOn?_of_ne {line : Text} (h : ofLine? line ≠ some name) : nameOn? line = none := if_neg h

theorem nameOn?_of_inside {line : Text} (h : isInside line = true) : nameOn? line = none := by
  apply nameOn?_of_ne
  intro hn
  simp [isInside, isFieldLine, hn] at h

theorem filterMap_nameOn? (ls : List Text) : ls.filterMap nameOn? =
    (ls.filter fun line => ofLine? line = some name).map fun line => Text.strip (name.behind line) := by
  induction ls with
  | nil => rfl
  | cons line ls ih =>
    by_cases h : ofLine? line = some name <;> simp [nameOn?, h, ih]

/-- A line declares a parameter that cannot be read, and the error has the last name before it. -/
def Rejects (ls : List Text) (e : MalformedParameter) : Prop :=
  ∃ before line after, ls = before ++ line :: after ∧ ofLine? line = some parameter ∧
    e.line = Text.strip (parameter.behind line) ∧ Parameter.read? e.line = none ∧
    (∃ opener ∈ before, ofLine? opener = some name) ∧ e.pattern = (before.filterMap nameOn?).getLast?

end Field

/-! ## The scan over chunks -/

namespace Chunk

open PatternBook.Field (nameOn? nameOn?_of_inside nameOn?_of_name nameOn?_of_ne)

def names (current : Option Pattern) (ks : List Chunk) : List Text :=
  current.toList.map Pattern.name ++ ks.filterMap fun k => nameOn? k.head

theorem filterMap_nameOn?_lines (k : Chunk) : k.lines.filterMap nameOn? = (nameOn? k.head).toList := by
  have hb : k.body.filterMap nameOn? = [] :=
    List.filterMap_eq_nil_iff.mpr fun line hl => nameOn?_of_inside (k.inside line hl)
  rw [lines, List.filterMap_cons, hb]
  cases nameOn? k.head <;> rfl

theorem filterMap_nameOn?_flatMap (ks : List Chunk) :
    (ks.flatMap lines).filterMap nameOn? = ks.filterMap fun k => nameOn? k.head := by
  induction ks with
  | nil => rfl
  | cons k ks ih =>
    rw [List.flatMap_cons, List.filterMap_append, filterMap_nameOn?_lines, ih, List.filterMap_cons]
    cases nameOn? k.head <;> rfl

theorem eq_append_cut (ls : List Text) : ls = ls.takeWhile Field.isInside ++ (cut ls).flatMap lines := by
  rw [flatMap_lines_cut, List.takeWhile_append_dropWhile]

theorem filterMap_nameOn?_takeWhile (ls : List Text) : (ls.takeWhile Field.isInside).filterMap nameOn? = [] :=
  List.filterMap_eq_nil_iff.mpr fun _ hl => nameOn?_of_inside (List.mem_takeWhile_imp hl)

theorem names_none_cut (ls : List Text) : names none (cut ls) = ls.filterMap nameOn? := by
  conv => rhs; rw [eq_append_cut ls]
  rw [List.filterMap_append, filterMap_nameOn?_takeWhile, filterMap_nameOn?_flatMap]
  rfl

theorem opensPattern_iff (k : Chunk) : k.field.opensPattern = true ↔ k.field = .name := by
  simp [Field.opensPattern]

theorem nameOn?_head_of_opens {k : Chunk} (h : k.field.opensPattern = true) :
    nameOn? k.head = some (Field.single Field.name.tag k.head) := by
  apply nameOn?_of_name
  rw [k.begins, (opensPattern_iff k).mp h]

theorem nameOn?_head_of_continues {k : Chunk} (h : k.field.opensPattern = false) : nameOn? k.head = none := by
  apply nameOn?_of_ne
  rw [k.begins]
  intro hn
  rw [(opensPattern_iff k).mpr (Option.some.inj hn)] at h
  cases h

theorem named?_entry (k : Chunk) : (k.field.entry k.head k.body).named? = nameOn? k.head := by
  by_cases h : k.field.opensPattern = true
  · rw [nameOn?_head_of_opens h, (opensPattern_iff k).mp h]
    rfl
  · rw [nameOn?_head_of_continues (by simpa using h)]
    cases hf : k.field with
    | name => exact absurd ((opensPattern_iff k).mpr hf) h
    | _ => rfl

def Rejects (current : Option Pattern) (ks : List Chunk) (e : MalformedParameter) : Prop :=
  ∃ before k after, ks = before ++ k :: after ∧ k.field = .parameter ∧
    e.line = Field.single Field.parameter.tag k.head ∧ Parameter.read? e.line = none ∧
    ∃ name, (names current before).getLast? = some name ∧ e.pattern = some name

theorem Rejects.cons {current current' : Option Pattern} {k : Chunk} {ks : List Chunk} {e : MalformedParameter}
    (h : Rejects current' ks e) {passed : List Text}
    (hn : ∀ before, names current (k :: before) = passed ++ names current' before) :
    Rejects current (k :: ks) e := by
  obtain ⟨before, j, after, rfl, hj, hl, hr, name, hname, hp⟩ := h
  refine ⟨k :: before, j, after, rfl, hj, hl, hr, name, ?_, hp⟩
  rw [hn, List.getLast?_append, hname]
  rfl

theorem names_cons {current : Option Pattern} {k : Chunk} {p q : Pattern}
    (hp : (if k.field.opensPattern then some .fresh else current) = some p)
    (hq : q.name = (nameOn? k.head).getD p.name) (ks : List Chunk) :
    names current (k :: ks) =
      ((if k.field.opensPattern then current.toList else []).map Pattern.name) ++ names (some q) ks := by
  by_cases ho : k.field.opensPattern = true
  · have hk := nameOn?_head_of_opens ho
    rw [hk, Option.getD_some] at hq
    simp [names, ho, hk, hq]
  · have hk := nameOn?_head_of_continues (by simpa using ho)
    rw [hk, Option.getD_none] at hq
    rw [if_neg ho] at hp
    simp [names, ho, hk, hp, hq]

/-- **The scan** gives a pattern for each name, or the error of a declaration under the last of them. -/
theorem scan_cases (s : Settings) (ks : List Chunk) (current : Option Pattern) :
    (∃ ps, (scan s current ks).outcome = .ok ps ∧ ps.map Pattern.name = names current ks) ∨
      s.strict = true ∧ ∃ e, (scan s current ks).outcome = .error (.parameter e) ∧ Rejects current ks e := by
  -- the names of the pattern that is open and of those to come are the same before and after each chunk
  induction ks generalizing current with
  | nil => exact .inl ⟨_, rfl, by simp [names]⟩
  | cons k ks ih =>
    rw [scan]
    cases hp : (if k.field.opensPattern then some .fresh else current) with
    | none =>
      have ho : k.field.opensPattern = false := by
        cases ho : k.field.opensPattern with
        | true => simp [ho] at hp
        | false => rfl
      obtain rfl : current = none := by simpa [ho] using hp
      have hn : ∀ before, names none (k :: before) = [] ++ names none before := by
        intro before
        simp [names, nameOn?_head_of_continues ho]
      rw [Run.outcome_bind_of_ok rfl]
      obtain ⟨ps, hps, hnames⟩ | ⟨hs, e, he, hr⟩ := ih none
      · exact .inl ⟨ps, hps, by rw [hnames, hn]; rfl⟩
      · exact .inr ⟨hs, e, he, hr.cons hn⟩
    | some p =>
      dsimp only
      rw [store_eq]
      obtain ⟨q, hq, hname, -⟩ | ⟨d, hd, hs, hr, hfail⟩ := (k.field.entry k.head k.body).store_cases s p
      · rw [named?_entry] at hname
        have hn := names_cons hp hname
        rw [Run.outcome_bind_of_ok hq]
        obtain ⟨ps, hps, hnames⟩ | ⟨hs, e, he, hr⟩ := ih (some q)
        · rw [Run.outcome_bind_of_ok hps]
          exact .inl ⟨_, rfl, by rw [List.map_append, hnames, hn]⟩
        · rw [Run.outcome_bind_of_error he]
          exact .inr ⟨hs, e, rfl, hr.cons hn⟩
      · -- only a declaration fails, and it opens no pattern
        have hf : k.field = .parameter := by
          cases hf : k.field with
          | parameter => rfl
          | _ => simp [hf, Field.entry] at hd
        have ho : k.field.opensPattern = false := by rw [hf]; rfl
        obtain rfl : current = some p := by simpa [ho] using hp
        rw [hf] at hd
        obtain rfl := Entry.parameter.inj hd
        rw [hfail, Run.outcome_bind_of_error rfl]
        exact .inr ⟨hs, _, rfl, [], k, ks, rfl, hf, rfl, hr, p.name, by simp [names], rfl⟩

theorem Rejects.lines {ls : List Text} {e : MalformedParameter} (h : Rejects none (cut ls) e) :
    Field.Rejects ls e := by
  obtain ⟨before, k, after, hcut, hk, hl, hr, name, hname, hp⟩ := h
  have hb := k.begins
  rw [hk] at hb
  have hbefore :
      (ls.takeWhile Field.isInside ++ before.flatMap Chunk.lines).filterMap nameOn? = names none before := by
    rw [List.filterMap_append, filterMap_nameOn?_takeWhile, filterMap_nameOn?_flatMap]
    rfl
  refine ⟨ls.takeWhile Field.isInside ++ before.flatMap Chunk.lines, k.head,
    k.body ++ after.flatMap Chunk.lines, ?_, hb, by rw [hl, Field.single_eq_behind hb], hr, ?_,
    by rw [hbefore, hname, hp]⟩
  · conv => lhs; rw [eq_append_cut ls, hcut]
    simp [Chunk.lines]
  · have hm : name ∈ names none before := List.mem_of_getLast? hname
    rw [← hbefore] at hm
    obtain ⟨opener, ho, hon⟩ := List.mem_filterMap.mp hm
    refine ⟨opener, ho, Classical.byContradiction fun hne => ?_⟩
    rw [nameOn?_of_ne hne] at hon
    cases hon

end Chunk

/-! ## Blocks and source texts -/

theorem Block.patterns_cases (s : Settings) (body : Text) :
    (∃ ps, (patterns s body).outcome = .ok ps ∧ ps.map Pattern.name = (Text.lines body).filterMap Field.nameOn?) ∨
      s.strict = true ∧ ∃ e, (patterns s body).outcome = .error (.parameter e) ∧
        Field.Rejects (Text.lines body) e := by
  rw [patterns, Chunk.scan_eq, Cursor.ahead_ofText, ← Chunk.names_none_cut]
  obtain h | ⟨hs, e, he, hr⟩ := Chunk.scan_cases s (Chunk.cut (Text.lines body)) none
  · exact .inl h
  · exact .inr ⟨hs, e, he, hr.lines⟩

namespace Source

theorem partialsOf_cases (s : Settings) (bodies : List Text) :
    (∃ ps, (partialsOf s bodies).outcome = .ok ps ∧
      ps.map Pattern.name = (bodies.flatMap Text.lines).filterMap Field.nameOn?) ∨
    s.strict = true ∧ ∃ e, (partialsOf s bodies).outcome = .error (.parameter e) ∧
      ∃ body ∈ bodies, Field.Rejects (Text.lines body) e := by
  induction bodies with
  | nil => exact .inl ⟨[], rfl, rfl⟩
  | cons body bodies ih =>
    rw [partialsOf]
    obtain ⟨ps, hps, hp⟩ | ⟨hs, e, he, hr⟩ := Block.patterns_cases s body
    · rw [Run.outcome_bind_of_ok hps]
      obtain ⟨qs, hqs, hq⟩ | ⟨hs, e, he, body', hb, hr⟩ := ih
      · rw [Run.outcome_bind_of_ok hqs]
        refine .inl ⟨ps ++ qs, rfl, ?_⟩
        rw [List.map_append, hp, hq, List.flatMap_cons, List.filterMap_append]
      · rw [Run.outcome_bind_of_error he]
        exact .inr ⟨hs, e, rfl, body', List.mem_cons_of_mem body hb, hr⟩
    · rw [Run.outcome_bind_of_error he]
      exact .inr ⟨hs, e, rfl, body, List.mem_cons_self .., hr⟩

theorem patterns_cases (s : Settings) (source : Text) :
    (∃ ps, (patterns s source).outcome = .ok ps) ∨
      s.strict = true ∧ ∃ e, (patterns s source).outcome = .error (.parameter e) ∧
        ∃ body ∈ Comment.bodies source, Field.Rejects (Text.lines body) e := by
  rw [patterns, partials]
  obtain ⟨ps, hps, -⟩ | ⟨hs, e, he, hr⟩ := partialsOf_cases s (Comment.bodies source)
  · rw [Run.outcome_bind_of_ok hps]
    exact .inl ⟨_, rfl⟩
  · rw [Run.outcome_bind_of_error he]
    exact .inr ⟨hs, e, rfl, hr⟩

/-- **One pattern for each name line.** Where the patterns of a source text are given, their names are what
stands behind the tags of its name lines, in order. -/
theorem names_partials (s : Settings) (source : Text) {ps : List Pattern}
    (h : (partials s source).outcome = .ok ps) :
    ps.map Pattern.name =
        (((Comment.bodies source).flatMap Text.lines).filter fun line => Field.ofLine? line = some .name).map
          (fun line => Text.strip (Field.name.behind line)) ∧
      ∀ line, Field.ofLine? line = some .name →
        ∃ d, (∀ c ∈ d, Tag.isDecoration c = true) ∧ line = d ++ (Field.name.tag ++ Field.name.behind line) := by
  constructor
  · rw [← Field.filterMap_nameOn?]
    obtain ⟨qs, hqs, hn⟩ | ⟨-, e, he, -⟩ := partialsOf_cases s (Comment.bodies source)
    · rw [partials, hqs] at h
      cases h
      exact hn
    · rw [partials, he] at h
      cases h
  · intro line hl
    exact ⟨_, fun c hc => List.mem_takeWhile_imp hc, Field.eq_tag_behind hl⟩

/-- A name behind a description that belongs to no pattern, one behind a todo of two lines, and an empty one. -/
def threeNames : Text :=
  "/**\n * @description a\n * @pattern b c \n * @todo d\n * e\n@pattern f*/ g /*@pattern*/".toList

theorem names_partials_three : ∃ ps, (partials {} threeNames).outcome = .ok ps ∧
    ps.map Pattern.name = [['b', ' ', 'c'], ['f'], []] := by
  have hok : (partials {} threeNames).outcome.toOption.isSome = true := by decide +kernel
  cases h : (partials {} threeNames).outcome with
  | error e => rw [h] at hok; cases hok
  | ok ps =>
    refine ⟨ps, rfl, (names_partials {} threeNames h).1.trans ?_⟩
    decide +kernel

end Source

end PatternBook
