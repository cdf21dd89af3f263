import PatternBook.Json.Printer
import PatternBook.Json.Reader
import PatternBook.Proofs.MetadataLemmas
import PatternBook.Proofs.TextLemmas

/-!
# Written values read back

A value without numbers, none of whose objects gives a key twice, is read back from every layout of it. What
is proved of each kind of value is `ReadsBack`: the value is read at the front of any text, and what
follows is left. The fuel that is needed is less than twice the length of what was written, because a list
needs a unit for itself and one for each part, and there are brackets and commas to pay for them.
-/

namespace PatternBook

namespace Json

/-! ## Strings -/

theorem hexValue?_hexDigit : ∀ n < 16, hexValue? (Text.hexDigit n) = some n := by decide

theorem readUnits?_hex {n : Nat} (h : n < 65536) (s : Text) :
    readUnits? (['\\', 'u'] ++ Text.hex 4 n ++ s) = (readUnits? s).map fun (units, rest) => (n :: units, rest) := by
  have hd : ∀ k, hexValue? (Text.hexDigit (k % 16)) = some (k % 16) := fun k =>
    hexValue?_hexDigit _ (Nat.mod_lt k (by decide))
  have hn : ((n / 16 / 16 / 16 % 16 * 16 + n / 16 / 16 % 16) * 16 + n / 16 % 16) * 16 + n % 16 = n := by omega
  simp only [Text.hex, List.nil_append, List.cons_append, readUnits?, hd, hn]

theorem readUnits?_short {d : Char} {unit : Nat} (hd : d ≠ 'u') (h : shortEscape? d = some unit) (s : Text) :
    readUnits? ('\\' :: d :: s) = (readUnits? s).map fun (units, rest) => (unit :: units, rest) := by
  rw [readUnits?.eq_def]
  split
  · rename_i heq; cases heq
  · rename_i heq; simp at heq
  · rename_i heq; exact absurd (List.cons.inj (List.cons.inj heq).2).1 hd
  · rename_i heq
    cases heq
    rw [h]
  · rename_i hlone heq
    cases heq
    exact (hlone d s rfl rfl).elim

theorem readUnits?_plain {c : Char} (hc : 0x20 ≤ c.toNat) (hq : c ≠ '"') (hb : c ≠ '\\') (s : Text) :
    readUnits? (c :: s) = (readUnits? s).map fun (units, rest) => (c.toNat :: units, rest) := by
  have hlow : (decide (c.toNat < 0x20) || decide (c = '\\')) = false := by simp [hb, hc]
  rw [readUnits?.eq_def]
  split
  · rename_i heq; cases heq
  · rename_i heq; exact absurd (List.cons.inj heq).1 hq
  · rename_i heq; exact absurd (List.cons.inj heq).1 hb
  · rename_i heq; exact absurd (List.cons.inj heq).1 hb
  · rename_i heq
    cases heq
    simp [hlow]

theorem readUnits?_escapeChar (c : Char) (s : Text) :
    readUnits? (escapeChar c ++ s) = (readUnits? s).map fun (units, rest) => (c.toNat :: units, rest) := by
  unfold escapeChar
  by_cases hq : c = '"'
  · subst hq
    exact readUnits?_short (by decide) rfl s
  by_cases hb : c = '\\'
  · subst hb
    exact readUnits?_short (by decide) rfl s
  rw [if_neg (by simp [hq, hb])]
  split
  · subst_vars
    exact readUnits?_short (by decide) rfl s
  split
  · subst_vars
    exact readUnits?_short (by decide) rfl s
  split
  · subst_vars
    exact readUnits?_short (by decide) rfl s
  split
  · rename_i h
    rw [h]
    exact readUnits?_short (by decide) rfl s
  split
  · rename_i h
    rw [h]
    exact readUnits?_short (by decide) rfl s
  split
  · exact readUnits?_hex (by omega) s
  · exact readUnits?_plain (by omega) hq hb s

theorem readUnits?_flatMap (rest : Text) : ∀ s : Text,
    readUnits? (s.flatMap escapeChar ++ '"' :: rest) = some (s.map Char.toNat, rest)
  | [] => rfl
  | c :: s => by
    rw [List.flatMap_cons, List.append_assoc, readUnits?_escapeChar, readUnits?_flatMap rest s]
    rfl

/-- No character is half of a pair. -/
theorem not_half_toNat (c : Char) : isHighUnit c.toNat = false ∧ isLowUnit c.toNat = false := by
  have hv : c.toNat < 0xD800 ∨ 0xDFFF < c.toNat ∧ c.toNat < 0x110000 := c.valid
  simp only [isHighUnit, isLowUnit, Bool.and_eq_false_iff, decide_eq_false_iff_not]
  omega

theorem unitChar_toNat (c : Char) : unitChar c.toNat = c := by
  simp [unitChar, not_half_toNat c]

theorem joinUnits_map : ∀ s : Text, joinUnits (s.map Char.toNat) = s
  | [] => rfl
  | [c] => by simp [joinUnits, unitChar_toNat]
  | c :: d :: s => by
    have ih := joinUnits_map (d :: s)
    simp only [List.map_cons] at ih
    simp [joinUnits, not_half_toNat c, unitChar_toNat, ih]

theorem readText?_flatMap (s rest : Text) : readText? (s.flatMap escapeChar ++ '"' :: rest) = some (s, rest) := by
  unfold readText?
  rw [readUnits?_flatMap]
  simp [joinUnits_map]

theorem renderText_append (s rest : Text) :
    renderText s ++ rest = '"' :: (s.flatMap escapeChar ++ '"' :: rest) := by
  simp [renderText]

/-! ## Layout -/

theorem isSpace_lineBreak (indent : Option Nat) (depth : Nat) : ∀ c ∈ lineBreak indent depth, isSpace c = true := by
  intro c hc
  cases indent with
  | none => cases hc
  | some width =>
    rcases List.mem_cons.mp hc with rfl | hc
    · rfl
    · rw [List.eq_of_mem_replicate hc]; rfl

theorem exists_separator (indent : Option Nat) (depth : Nat) :
    ∃ gap, separator indent depth = ',' :: gap ∧ ∀ c ∈ gap, isSpace c = true := by
  cases indent with
  | none => exact ⟨[' '], rfl, by decide⟩
  | some width => exact ⟨_, rfl, isSpace_lineBreak (some width) depth⟩

theorem enclose_cons (indent : Option Nat) (depth : Nat) (left right : Char) (t : Text) (ts : List Text) :
    enclose indent depth left right (t :: ts) = left :: (lineBreak indent (depth + 1) ++
      (Text.join (separator indent (depth + 1)) (t :: ts) ++ (lineBreak indent depth ++ [right]))) := by
  simp [enclose]

theorem dropWhile_mark {c : Char} (hc : isSpace c = false) (s : Text) : (c :: s).dropWhile isSpace = c :: s :=
  List.dropWhile_cons_of_neg (by simp [hc])

theorem dropWhile_gap {gap : Text} (hgap : ∀ c ∈ gap, isSpace c = true) {c : Char} (hc : isSpace c = false)
    (s : Text) : (gap ++ c :: s).dropWhile isSpace = c :: s :=
  Text.dropWhile_run hgap (by simp [hc])

def Begun (s : Text) : Prop := ∃ c t, s = c :: t ∧ isSpace c = false ∧ c ≠ ']' ∧ c ≠ '}'

theorem begun_renderText (s : Text) : Begun (renderText s) := ⟨_, _, rfl, by decide⟩

theorem begun_enclose (indent : Option Nat) (depth : Nat) {left : Char}
    (hl : isSpace left = false ∧ left ≠ ']' ∧ left ≠ '}') (right : Char) (parts : List Text) :
    Begun (enclose indent depth left right parts) := by
  unfold enclose
  split <;> exact ⟨left, _, rfl, hl⟩

namespace Begun

variable {s : Text} (h : Begun s)
include h

theorem append (t : Text) : Begun (s ++ t) := by
  obtain ⟨c, r, rfl, hc⟩ := h
  exact ⟨c, r ++ t, rfl, hc⟩

theorem join (sep : Text) (ts : List Text) : Begun (Text.join sep (s :: ts)) := by
  cases ts with
  | nil => simpa [Text.join] using h
  | cons t ts => rw [Text.join_cons_cons]; exact h.append _

theorem length_pos : 0 < s.length := by
  obtain ⟨c, r, rfl, -⟩ := h
  simp

theorem dropWhile_append {gap : Text} (hgap : ∀ c ∈ gap, isSpace c = true) : (gap ++ s).dropWhile isSpace = s := by
  obtain ⟨c, r, rfl, hc, -⟩ := h
  exact dropWhile_gap hgap hc r

end Begun

/-! ## Lists of parts

Items and members are read by the same turns: one part, and then the mark that closes the list, or a
comma and the parts that are left. -/

structure ReadsPart {α : Type} (close : Char) (read : Nat → Text → Option (List α × Text)) (part : α → Text)
    (a : α) : Prop where
  begun : Begun (part a)
  last : ∀ {gap : Text} {fuel : Nat}, (∀ c ∈ gap, isSpace c = true) → 2 * (part a).length ≤ fuel + 1 →
    ∀ rest, read (fuel + 1) (part a ++ (gap ++ close :: rest)) = some ([a], rest)
  next : ∀ {gap s rest : Text} {fuel : Nat} {items : List α}, (∀ c ∈ gap, isSpace c = true) →
    2 * (part a).length ≤ fuel + 1 → Begun s → read fuel s = some (items, rest) →
    read (fuel + 1) (part a ++ ',' :: (gap ++ s)) = some (a :: items, rest)

section
variable {α : Type} {close : Char} {read : Nat → Text → Option (List α × Text)} {part : α → Text}

theorem read_join {gap : Text} (hgap : ∀ c ∈ gap, isSpace c = true) (indent : Option Nat) (depth : Nat)
    (rest : Text) : ∀ {items : List α} {fuel : Nat}, items ≠ [] → (∀ a ∈ items, ReadsPart close read part a) →
      2 * (Text.join (separator indent depth) (items.map part)).length ≤ fuel →
      read fuel (Text.join (separator indent depth) (items.map part) ++ (gap ++ close :: rest)) = some (items, rest)
  | a :: items, 0, _, h, hf => by
    have hpos := ((h a (by simp)).begun.join (separator indent depth) (items.map part)).length_pos
    rw [List.map_cons] at hf
    omega
  | [a], fuel + 1, _, h, hf => by
    have hj : Text.join (separator indent depth) ([a].map part) = part a := by simp [Text.join]
    rw [hj] at hf ⊢
    exact (h a (by simp)).last hgap hf rest
  | a :: b :: items, fuel + 1, _, h, hf => by
    obtain ⟨sep, hs, hsep⟩ := exists_separator indent depth
    have hb := (h b (by simp)).begun.join (separator indent depth) (items.map part)
    have hj : Text.join (separator indent depth) ((a :: b :: items).map part) =
        part a ++ ',' :: (sep ++ Text.join (separator indent depth) ((b :: items).map part)) := by
      rw [List.map_cons, List.map_cons, Text.join_cons_cons]
      nth_rewrite 1 [hs]
      rfl
    rw [hj] at hf ⊢
    rw [List.length_append, List.length_cons, List.length_append] at hf
    -- the comma pays for this turn
    have hrest : 2 * (Text.join (separator indent depth) ((b :: items).map part)).length ≤ fuel := by omega
    have ih := read_join hgap indent depth rest (List.cons_ne_nil b items)
      (fun c hc => h c (List.mem_cons_of_mem a hc)) hrest
    rw [List.append_assoc, List.cons_append, List.append_assoc]
    exact (h a (by simp)).next hsep (by omega) (hb.append _) ih

theorem read_enclose (left : Char) {indent : Option Nat} {depth fuel : Nat} {items : List α} (hne : items ≠ [])
    (h : ∀ a ∈ items, ReadsPart close read part a)
    (hf : 2 * (enclose indent depth left close (items.map part)).length ≤ fuel + 2) (rest : Text) :
    ∃ s, enclose indent depth left close (items.map part) ++ rest = left :: (lineBreak indent (depth + 1) ++ s) ∧
      Begun s ∧ read fuel s = some (items, rest) := by
  obtain ⟨a, as, rfl⟩ := List.exists_cons_of_ne_nil hne
  have hb := (h a (by simp)).begun.join (separator indent (depth + 1)) (as.map part)
  rw [List.map_cons, enclose_cons, ← List.map_cons] at hf ⊢
  simp only [List.length_cons, List.length_append] at hf
  -- the brackets pay for the call that reads them
  have hlen : 2 * (Text.join (separator indent (depth + 1)) ((a :: as).map part)).length ≤ fuel := by omega
  exact ⟨_, by simp, hb.append _, read_join (isSpace_lineBreak indent depth) indent (depth + 1) rest hne h hlen⟩

end

/-! ## Values -/

structure ReadsBack (v : Json) : Prop where
  begun : ∀ (indent : Option Nat) (depth : Nat), Begun (renderAt indent depth v)
  read : ∀ {indent : Option Nat} {depth fuel : Nat}, 2 * (renderAt indent depth v).length ≤ fuel + 1 →
    ∀ rest, readValue? fuel (renderAt indent depth v ++ rest) = some (v, rest)

/-- Nothing is written without a character, so there is always fuel for the first call. -/
theorem ReadsBack.of_succ {v : Json}
    (begun : ∀ (indent : Option Nat) (depth : Nat), Begun (renderAt indent depth v))
    (read : ∀ {indent : Option Nat} {depth fuel : Nat}, 2 * (renderAt indent depth v).length ≤ fuel + 2 →
      ∀ rest, readValue? (fuel + 1) (renderAt indent depth v ++ rest) = some (v, rest)) : ReadsBack v := by
  refine ⟨begun, fun {indent depth fuel} hf rest => ?_⟩
  have hpos := (begun indent depth).length_pos
  cases fuel with
  | zero => omega
  | succ fuel => exact read hf rest

theorem readsBack_null : ReadsBack null := by
  refine .of_succ (fun _ _ => ⟨_, _, rfl, by decide⟩) fun _ rest => ?_
  simp [renderAt, readValue?, readConstant?, constants, Text.after?]

theorem readsBack_bool (b : Bool) : ReadsBack (bool b) := by
  refine .of_succ (fun _ _ => ?_) fun _ rest => ?_
  · cases b <;> exact ⟨_, _, rfl, by decide⟩
  · cases b <;> simp [renderAt, readValue?, readConstant?, constants, Text.after?]

theorem readsBack_text (s : Text) : ReadsBack (text s) := by
  refine .of_succ (fun _ _ => begun_renderText s) fun _ rest => ?_
  rw [renderAt, renderText_append, readValue?, readText?_flatMap]
  rfl

theorem renderItems_eq_map (indent : Option Nat) (depth : Nat) : ∀ items : List Json,
    renderItems indent depth items = items.map (renderAt indent depth)
  | [] => rfl
  | v :: items => by rw [renderItems, renderItems_eq_map indent depth items]; rfl

theorem ReadsBack.item {v : Json} (hv : ReadsBack v) (indent : Option Nat) (depth : Nat) :
    ReadsPart ']' readItems? (renderAt indent depth) v where
  begun := hv.begun indent depth
  last hgap hf rest := by
    rw [readItems?, hv.read hf]
    simp only [dropWhile_gap hgap (show isSpace ']' = false from rfl)]
  next hgap hf hs h := by
    rw [readItems?, hv.read hf]
    simp only [dropWhile_mark (show isSpace ',' = false from rfl), hs.dropWhile_append hgap, h, Option.map_some]

theorem readsBack_array {items : List Json} (h : ∀ v ∈ items, ReadsBack v) : ReadsBack (array items) := by
  refine .of_succ (fun indent depth => ?_) fun {indent depth fuel} hf rest => ?_
  · rw [renderAt]
    exact begun_enclose indent depth (by decide) _ _
  · rw [renderAt, renderItems_eq_map] at hf ⊢
    by_cases hne : items = []
    · subst hne; rfl
    · obtain ⟨s, hs, hb, hr⟩ := read_enclose '[' hne (fun v hv => (h v hv).item indent (depth + 1)) hf rest
      rw [hs, readValue?, hb.dropWhile_append (isSpace_lineBreak indent (depth + 1))]
      obtain ⟨c, t, rfl, -, hc, -⟩ := hb
      simp [hr, hc]

def memberText (indent : Option Nat) (depth : Nat) (m : Text × Json) : Text :=
  renderText m.1 ++ [':', ' '] ++ renderAt indent depth m.2

theorem memberText_append (indent : Option Nat) (depth : Nat) (key : Text) (v : Json) (rest : Text) :
    memberText indent depth (key, v) ++ rest =
      '"' :: (key.flatMap escapeChar ++ '"' :: ':' :: ' ' :: (renderAt indent depth v ++ rest)) := by
  simp [memberText, renderText]

theorem renderMembers_eq_map (indent : Option Nat) (depth : Nat) : ∀ members : List (Text × Json),
    renderMembers indent depth members = members.map (memberText indent depth)
  | [] => rfl
  | (key, v) :: members => by rw [renderMembers, renderMembers_eq_map indent depth members]; rfl

theorem ReadsBack.member {v : Json} (hv : ReadsBack v) (key : Text) (indent : Option Nat) (depth : Nat) :
    ReadsPart '}' readMembers? (memberText indent depth) (key, v) := by
  have hvalue : ∀ {fuel : Nat}, 2 * (memberText indent depth (key, v)).length ≤ fuel + 1 → ∀ rest : Text,
      readValue? fuel ((' ' :: (renderAt indent depth v ++ rest)).dropWhile isSpace) = some (v, rest) := by
    intro fuel hf rest
    simp only [memberText, List.length_append] at hf
    have hd : ([' '] ++ (renderAt indent depth v ++ rest)).dropWhile isSpace = renderAt indent depth v ++ rest :=
      ((hv.begun indent depth).append rest).dropWhile_append (by decide)
    rw [List.singleton_append] at hd
    rw [hd]
    exact hv.read (by omega) rest
  refine ⟨((begun_renderText key).append _).append _, fun hgap hf rest => ?_, fun hgap hf hs h => ?_⟩
  · rw [memberText_append, readMembers?, readText?_flatMap]
    simp only [dropWhile_mark (show isSpace ':' = false from rfl), hvalue hf,
      dropWhile_gap hgap (show isSpace '}' = false from rfl)]
  · rw [memberText_append, readMembers?, readText?_flatMap]
    simp only [dropWhile_mark (show isSpace ':' = false from rfl), hvalue hf,
      dropWhile_mark (show isSpace ',' = false from rfl), hs.dropWhile_append hgap, h, Option.map_some]

theorem readsBack_object {members : List (Text × Json)} (hk : (Assoc.keys members).Nodup)
    (h : ∀ m ∈ members, ReadsBack m.2) : ReadsBack (object members) := by
  refine .of_succ (fun indent depth => ?_) fun {indent depth fuel} hf rest => ?_
  · rw [renderAt]
    exact begun_enclose indent depth (by decide) _ _
  · rw [renderAt, renderMembers_eq_map] at hf ⊢
    by_cases hne : members = []
    · subst hne; rfl
    · obtain ⟨s, hs, hb, hr⟩ := read_enclose '{' hne (fun m hm => (h m hm).member m.1 indent (depth + 1)) hf rest
      rw [hs, readValue?, hb.dropWhile_append (isSpace_lineBreak indent (depth + 1))]
      obtain ⟨c, t, rfl, -, -, hc⟩ := hb
      simp [hr, hc, Assoc.ofList_of_nodup hk]

/-- Values without numbers, none of whose objects gives a key twice. -/
inductive Plain : Json → Prop
  | null : Plain null
  | bool (b : Bool) : Plain (bool b)
  | text (s : Text) : Plain (text s)
  | array {items : List Json} : (∀ v ∈ items, Plain v) → Plain (array items)
  | object {members : List (Text × Json)} : (Assoc.keys members).Nodup → (∀ m ∈ members, Plain m.2) →
      Plain (object members)

attribute [simp] Plain.null Plain.bool Plain.text

@[simp] theorem plain_array_iff {items : List Json} : Plain (array items) ↔ ∀ v ∈ items, Plain v :=
  ⟨fun h => by cases h; assumption, .array⟩

@[simp] theorem plain_object_iff {members : List (Text × Json)} :
    Plain (object members) ↔ (Assoc.keys members).Nodup ∧ ∀ m ∈ members, Plain m.2 :=
  ⟨fun h => by cases h; exact ⟨‹_›, ‹_›⟩, fun h => .object h.1 h.2⟩

theorem Plain.readsBack {v : Json} (h : Plain v) : ReadsBack v := by
  induction h with
  | null => exact readsBack_null
  | bool b => exact readsBack_bool b
  | text s => exact readsBack_text s
  | array _ ih => exact readsBack_array ih
  | object hk _ ih => exact readsBack_object hk ih

theorem read?_render {v : Json} (h : Plain v) (indent : Option Nat) : read? (render indent v) = some v := by
  obtain ⟨c, t, hc, hspace, -⟩ := h.readsBack.begun indent 0
  have hfuel : 2 * (renderAt indent 0 v).length ≤ 2 * (renderAt indent 0 v).length + 1 + 1 := by omega
  have hr := h.readsBack.read hfuel []
  rw [List.append_nil] at hr
  have hd : (renderAt indent 0 v).dropWhile isSpace = renderAt indent 0 v := by
    rw [hc]
    exact dropWhile_mark hspace t
  rw [read?, render, hd, hr]
  rfl

end Json

end PatternBook
