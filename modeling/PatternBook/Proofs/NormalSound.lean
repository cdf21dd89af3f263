import PatternBook.Proofs.FoldedLemmas
import PatternBook.Proofs.GrammarSound
import PatternBook.Proofs.MergeSound

/-!
# The normal form of patterns

What is read from a source text is trimmed, without shared indentation, and under keys that are words. A key that
collects its values holds a list and any other key a single text, the key of todos apart. Each reader gives only
entries that are normal, storing one on a normal pattern gives a normal pattern, and so does merging.
-/

namespace PatternBook

/-! ## Lines without blanks at their ends -/

namespace Text

def Tidy (s : Text) : Prop := ∀ line ∈ lines s, stripEnd line = line

theorem stripEnd_of_suffix {s t : Text} (ht : t <:+ s) (h : stripEnd s = s) : stripEnd t = t := by
  have hlast := last_trimEnd isBlank s
  unfold stripEnd at h
  rw [h] at hlast
  exact trimEnd_of_last (last_of_suffix ht hlast)

theorem stripEnd_stripEnd (s : Text) : stripEnd (stripEnd s) = stripEnd s :=
  trimEnd_of_last (last_trimEnd isBlank s)

theorem tidy_unlines {ls : List Text} (hn : ∀ line ∈ ls, '\n' ∉ line) (h : ∀ line ∈ ls, stripEnd line = line) :
    Tidy (unlines ls) := by
  by_cases hne : ls = []
  · subst hne
    intro line hl
    obtain rfl := List.mem_singleton.mp hl
    rfl
  · unfold Tidy
    rwa [lines_unlines hne hn]

theorem Tidy.strip {s : Text} (h : Tidy s) : Tidy (Indent.strip s) := by
  intro line hl
  rw [Indent.lines_strip] at hl
  obtain ⟨l, hl', rfl⟩ := List.mem_map.mp hl
  exact stripEnd_of_suffix (Indent.dropShared_suffix _ l) (h l hl')

theorem Tidy.trim {s : Text} (h : Tidy s) : Tidy (trim (· == '\n') s) := by
  intro line hl
  obtain ⟨m, n, hs⟩ := lines_trim_newline s
  apply h line
  rw [hs]
  simp [hl]

end Text

/-! ## Normal forms -/

structure Parameter.Normal (q : Parameter) : Prop where
  type : Text.Trimmed Text.isBlank q.type
  description : Text.Trimmed Text.isBlank q.description
  default : ∀ d ∈ q.default, Text.Trimmed Text.isBlank d

structure CodeBlock.Normal (b : CodeBlock) : Prop where
  syntax_name : ∀ n ∈ b.syntaxName, n ≠ [] ∧ ∀ c ∈ n, Text.isBlank c = false ∧ c ≠ '\x60'
  code_tidy : Text.Tidy b.code
  code_indent : Indent.strip b.code = b.code

structure Example.Normal (e : Example) : Prop where
  description : Text.Trimmed Text.isBlank e.description
  blocks : ∀ b ∈ e.blocks, b.Normal

/-- A single text stands under a key that does not collect, a list under one that does or under that of todos. -/
def MetaValue.Normal (s : Settings) (key : Text) : MetaValue → Prop
  | single value => key ∉ s.accumulating ∧ Text.Trimmed Text.isBlank value
  | many values => (key ∈ s.accumulating ∨ key = ['t', 'o', 'd', 'o']) ∧ values ≠ [] ∧
      ∀ v ∈ values, Text.Trimmed Text.isBlank v

def Text.Unspaced (s : Text) : Prop := s ≠ [] ∧ ∀ c ∈ s, isBlank c = false

def Metadata.Normal (s : Settings) (m : Metadata) : Prop := ∀ e ∈ m.entries, Text.Unspaced e.1 ∧ e.2.Normal s e.1

def Text.Paragraphs (s : Text) : Prop := s = [] ∨ ∀ line ∈ lines s, line ≠ [] ∧ Trimmed isBlank line

structure Pattern.Normal (s : Settings) (p : Pattern) : Prop where
  name : Text.Trimmed Text.isBlank p.name
  description : Text.Paragraphs p.description
  parameters : ∀ q ∈ p.parameters, q.Normal
  examples : ∀ e ∈ p.examples, e.Normal
  metadata : p.metadata.Normal s

/-! ## Metadata -/

namespace Assoc

variable {κ α : Type} [DecidableEq κ]

theorem mem_of_get? {k : κ} {v : α} : ∀ {m : List (κ × α)}, get? k m = some v → (k, v) ∈ m
  | (k', v') :: m, h => by
    by_cases hk : k' = k
    · subst hk
      simp [get?] at h
      simp [h]
    · rw [get?, if_neg hk] at h
      exact List.mem_cons_of_mem _ (mem_of_get? h)

theorem mem_insert {k : κ} {v : α} {e : κ × α} : ∀ {m : List (κ × α)}, e ∈ insert k v m → e = (k, v) ∨ e ∈ m
  | [], h => .inl (List.mem_singleton.mp h)
  | (k', v') :: m, h => by
    by_cases hk : k' = k
    · subst hk
      rw [insert, if_pos rfl, List.mem_cons] at h
      exact h.imp_right (List.mem_cons_of_mem _)
    · rw [insert, if_neg hk, List.mem_cons] at h
      rcases h with rfl | h
      · exact .inr (List.mem_cons_self ..)
      · exact (mem_insert h).imp_right (List.mem_cons_of_mem _)

end Assoc

section
variable {s : Settings}

theorem MetaValue.Normal.combine {key : Text} {current : Option MetaValue} {v : MetaValue}
    (hc : ∀ held ∈ current, held.Normal s key) (hv : v.Normal s key) :
    (MetaValue.combine current v).Normal s key := by
  cases v with
  | single t => exact hv
  | many new =>
    obtain ⟨hk, hne, hnew⟩ := hv
    rcases current with _ | old | old
    · exact ⟨hk, hne, hnew⟩
    · -- the single text becomes the first of the list, and the list is allowed as the incoming one is
      exact ⟨hk, by simp, List.forall_mem_cons.mpr ⟨(hc _ rfl).2, hnew⟩⟩
    · exact ⟨hk, by simp [hne], List.forall_mem_append.mpr ⟨(hc _ rfl).2.2, hnew⟩⟩

namespace Metadata

theorem Normal.give {m : Metadata} (hm : m.Normal s) {key : Text} (hkey : Text.Unspaced key) {v : MetaValue}
    (hv : v.Normal s key) : (m.give key v).Normal s := by
  intro e he
  rcases Assoc.mem_insert he with rfl | he
  · exact ⟨hkey, MetaValue.Normal.combine (fun held hh => (hm _ (Assoc.mem_of_get? hh)).2) hv⟩
  · exact hm e he

theorem Normal.foldl_give {es : List (Text × MetaValue)} {m : Metadata} (hm : m.Normal s)
    (hes : ∀ e ∈ es, Text.Unspaced e.1 ∧ e.2.Normal s e.1) : (es.foldl (fun m e => m.give e.1 e.2) m).Normal s := by
  induction es generalizing m with
  | nil => exact hm
  | cons e es ih =>
    rw [List.forall_mem_cons] at hes
    exact ih (hm.give hes.1.1 hes.1.2) hes.2

theorem Normal.merge {m n : Metadata} (hm : m.Normal s) (hn : n.Normal s) : (m.merge n).Normal s := hm.foldl_give hn

end Metadata

/-! ## Merging -/

namespace Pattern

theorem normal_fresh : Normal s .fresh where
  name := ⟨nofun, nofun⟩
  description := .inl rfl
  parameters := nofun
  examples := nofun
  metadata := nofun

theorem Normal.join {p q : Pattern} (hp : p.Normal s) (hq : q.Normal s) : (p.join q).Normal s where
  name := hp.name
  description := by
    unfold Pattern.join
    dsimp only
    split
    · exact hq.description
    · exact hp.description
  parameters := List.forall_mem_append.mpr ⟨hp.parameters, hq.parameters⟩
  examples := List.forall_mem_append.mpr ⟨hp.examples, hq.examples⟩
  metadata := hp.metadata.merge hq.metadata

theorem Normal.gather {p : Pattern} (hp : p.Normal s) : ∀ {merged : List Pattern}, (∀ q ∈ merged, q.Normal s) →
    ∀ q ∈ gather merged p, q.Normal s
  | [], _ => by
    rw [gather_nil]
    exact List.forall_mem_singleton.mpr hp
  | r :: merged, hm => by
    rw [List.forall_mem_cons] at hm
    rw [gather_cons]
    split
    · exact List.forall_mem_cons.mpr ⟨hm.1.join hp, hm.2⟩
    · exact List.forall_mem_cons.mpr ⟨hm.1, hp.gather hm.2⟩

theorem normal_foldl_gather {ps merged : List Pattern} (hps : ∀ p ∈ ps, p.Normal s)
    (hm : ∀ q ∈ merged, q.Normal s) : ∀ q ∈ ps.foldl gather merged, q.Normal s := by
  induction ps generalizing merged with
  | nil => exact hm
  | cons p ps ih =>
    rw [List.forall_mem_cons] at hps
    exact ih hps.2 (hps.1.gather hm)

theorem normal_merge {ps : List Pattern} (h : ∀ p ∈ ps, p.Normal s) : ∀ q ∈ merge ps, q.Normal s :=
  normal_foldl_gather h (by simp)

end Pattern

/-! ## Code blocks -/

namespace Fence

theorem normal_block {name : Text} (hname : ∀ c ∈ name, isSyntaxChar c = true) {body : List Text}
    (hn : ∀ line ∈ body, '\n' ∉ line) (h : ∀ line ∈ body, Text.stripEnd line = line) :
    (block name body).Normal where
  syntax_name := by
    intro n hn
    unfold block at hn
    by_cases hne : name = []
    · simp [hne] at hn
    · obtain rfl : name = n := by simpa [hne] using hn
      exact ⟨hne, fun c hc => by simpa [isSyntaxChar] using hname c hc⟩
  code_tidy := (Text.tidy_unlines hn h).strip
  code_indent := Indent.strip_strip _

theorem normal_blocksFrom {ls : List Text} (hn : ∀ line ∈ ls, '\n' ∉ line)
    (h : ∀ line ∈ ls, Text.stripEnd line = line) :
    ∀ {inside : Option (Text × List Text)}, (∀ held ∈ inside, (∀ c ∈ held.1, isSyntaxChar c = true) ∧
      (∀ line ∈ held.2, '\n' ∉ line) ∧ ∀ line ∈ held.2, Text.stripEnd line = line) →
      ∀ b ∈ blocksFrom inside ls, b.Normal := by
  -- what is asked of the lines ahead is asked of those in the open block, too, as a line goes from one to the other
  induction ls with
  | nil =>
    intro inside hi
    rcases inside with _ | ⟨name, body⟩
    · simp [blocksFrom]
    · obtain ⟨hname, hbn, hb⟩ := hi _ rfl
      exact List.forall_mem_singleton.mpr (normal_block hname hbn hb)
  | cons line ls ih =>
    intro inside hi
    rw [List.forall_mem_cons] at hn h
    rcases inside with _ | ⟨name, body⟩
    · refine ih hn.2 h.2 fun x hx => ?_
      obtain ⟨name, ho, rfl⟩ := Option.map_eq_some_iff.mp hx
      obtain ⟨rest, -, rfl⟩ := Option.map_eq_some_iff.mp ho
      exact ⟨fun c hc => List.mem_takeWhile_imp hc, by simp, by simp⟩
    · obtain ⟨hname, hbn, hb⟩ := hi _ rfl
      rw [blocksFrom]
      split
      · exact List.forall_mem_cons.mpr ⟨normal_block hname hbn hb, ih hn.2 h.2 (by simp)⟩
      · refine ih hn.2 h.2 fun x hx => ?_
        cases hx
        refine ⟨hname, List.forall_mem_append.mpr ⟨hbn, ?_⟩, List.forall_mem_append.mpr ⟨hb, ?_⟩⟩
        · exact List.forall_mem_singleton.mpr hn.1
        · exact List.forall_mem_singleton.mpr h.1

end Fence

namespace Field

theorem tidy_parts {ls : List Text} (hn : ∀ line ∈ ls, '\n' ∉ line) :
    Text.Tidy (Text.unlines (ls.map fun line => Text.stripEnd (dropMarker line))) := by
  apply Text.tidy_unlines
  · intro part hp hm
    obtain ⟨line, hl, rfl⟩ := List.mem_map.mp hp
    exact hn line hl ((dropMarker_suffix line).subset ((List.rdropWhile_prefix _ _).subset hm))
  · intro part hp
    obtain ⟨line, -, rfl⟩ := List.mem_map.mp hp
    exact Text.stripEnd_stripEnd _

theorem tidy_verbatim {ls : List Text} (hn : ∀ line ∈ ls, '\n' ∉ line) :
    Text.Tidy (verbatim none ls) ∧ Indent.strip (verbatim none ls) = verbatim none ls := by
  refine ⟨(tidy_parts hn).strip.trim, Indent.strip_of_shared ?_⟩
  unfold verbatim
  rw [Indent.shared_trim_newline]
  exact Indent.shared_strip _

theorem normal_codeBlocks {body : Text} (h : Text.Tidy body) (hi : Indent.strip body = body) :
    ∀ b ∈ codeBlocks body, b.Normal := by
  unfold codeBlocks
  dsimp only
  split
  · exact List.forall_mem_singleton.mpr ⟨nofun, h, hi⟩
  · exact Fence.normal_blocksFrom (fun line hl => Text.not_mem_of_mem_lines hl) h nofun

end Field

/-! ## Entries -/

/-- A declaration is free: what is read from it is trimmed only then. -/
def Entry.Normal : Entry → Prop
  | name value => Text.Trimmed Text.isBlank value
  | description value => Text.Paragraphs value
  | parameter _ => True
  | usage text blocks => Text.Trimmed Text.isBlank text ∧ ∀ b ∈ blocks, b.Normal
  | metadata pair => ∀ e ∈ pair, Text.Unspaced e.1 ∧ Text.Trimmed Text.isBlank e.2
  | todo item => Text.Trimmed Text.isBlank item

theorem Parameter.normal_read? {text : Text} {q : Parameter} (h : read? text = some q) : q.Normal := by
  obtain ⟨d, -, hq⟩ := read?_iff.mp h
  obtain ⟨tail, -, htail⟩ := hq.description
  refine ⟨?_, ?_, ?_⟩
  · rw [hq.type]
    exact Text.trimmed_trim _ _
  · rw [htail]
    exact Text.trimmed_trim _ _
  · intro e he
    rw [hq.default] at he
    obtain ⟨written, -, rfl⟩ := Option.map_eq_some_iff.mp he
    exact Text.trimmed_trim _ _

namespace Field

theorem trimmed_single (tag line : Text) : Text.Trimmed Text.isBlank (single tag line) := by
  unfold single
  split <;> exact Text.trimmed_trim _ _

theorem normal_keyValue? {value : Text} :
    ∀ e ∈ keyValue? value, Text.Unspaced e.1 ∧ Text.Trimmed Text.isBlank e.2 := by
  intro e he
  unfold keyValue? at he
  dsimp only at he
  split at he
  · cases he
  · rename_i hne
    cases he
    simp only [Bool.or_eq_true, not_or, List.isEmpty_iff] at hne
    exact ⟨⟨hne.1, fun c hc => by simpa using List.mem_takeWhile_imp hc⟩, Text.trimmed_trim _ _⟩

theorem paragraphs_folded {f : Field} {head : Text} {body : List Text} (h : ofLine? head = some f)
    (hn : ∀ line ∈ head :: body, '\n' ∉ line) : Text.Paragraphs (folded (some f.tag) (head :: body)) := by
  rw [folded_eq h hn]
  rw [List.forall_mem_cons] at hn
  have hps := oneLine_paragraphs (List.forall_mem_cons.mpr ⟨oneLine_single h hn.1, oneLine_parts hn.2⟩)
  by_cases hne : paragraphs (single f.tag head :: parts body) = []
  · rw [hne]
    exact .inl rfl
  · right
    rw [Text.lines_unlines hne fun y hy => (hps y hy).2.1]
    exact fun y hy => ⟨(hps y hy).1, (hps y hy).2.2⟩

theorem normal_entry {f : Field} {head : Text} {body : List Text} (h : ofLine? head = some f)
    (hn : ∀ line ∈ head :: body, '\n' ∉ line) : (f.entry head body).Normal := by
  cases f with
  | name => exact trimmed_single ..
  | description => exact paragraphs_folded h hn
  | parameter => trivial
  | usage =>
    refine ⟨trimmed_single .., ?_⟩
    split
    · exact nofun
    · obtain ⟨ht, hi⟩ := tidy_verbatim (List.forall_mem_cons.mp hn).2
      exact normal_codeBlocks ht hi
  | metadata => exact normal_keyValue?
  | todo => exact Text.trimmed_trim _ _ -- whatever the paragraphs are

end Field

/-- **One entry** stored on a normal pattern leaves it normal. -/
theorem Entry.Normal.store {p q : Pattern} {e : Entry} (he : e.Normal) (hp : p.Normal s)
    (h : (e.store s p).outcome = .ok q) : q.Normal s := by
  cases e with
  | name value =>
    cases h
    exact { hp with name := he }
  | description value =>
    cases h
    exact { hp with description := he }
  | parameter d =>
    cases hr : Parameter.read? d with
    | some parameter =>
      rw [store_parameter hr] at h
      cases h
      refine { hp with parameters := List.forall_mem_append.mpr ⟨hp.parameters, ?_⟩ }
      exact List.forall_mem_singleton.mpr (Parameter.normal_read? hr)
    | none =>
      rw [store_malformed hr] at h
      split at h
      · cases h
      · cases h
        exact hp
  | usage text blocks =>
    cases h
    refine { hp with examples := List.forall_mem_append.mpr ⟨hp.examples, ?_⟩ }
    exact List.forall_mem_singleton.mpr ⟨he.1, he.2⟩
  | metadata pair =>
    obtain _ | ⟨key, value⟩ := pair
    · cases h
      exact hp
    · obtain ⟨hkey, hvalue⟩ := he _ rfl
      cases h
      split
      · rename_i hk
        refine { hp with metadata := hp.metadata.give hkey ?_ }
        exact ⟨.inl (by simpa using hk), by simp, List.forall_mem_singleton.mpr hvalue⟩
      · rename_i hk
        refine { hp with metadata := hp.metadata.give hkey ?_ }
        exact ⟨by simpa using hk, hvalue⟩
  | todo item =>
    cases h
    split
    · exact hp
    · refine { hp with metadata := hp.metadata.give ⟨by decide, by decide⟩ ?_ }
      exact ⟨.inr rfl, by simp, List.forall_mem_singleton.mpr he⟩

/-! ## Source texts -/

theorem Chunk.scan_keeps {P : Pattern → Prop} (hfresh : P .fresh) {ks : List Chunk}
    (hstep : ∀ k ∈ ks, ∀ {p q : Pattern}, P p → (k.store s p).outcome = .ok q → P q) :
    ∀ {current : Option Pattern} {ps : List Pattern}, (∀ p ∈ current, P p) →
      (scan s current ks).outcome = .ok ps → ∀ p ∈ ps, P p := by
  -- the pattern that is open has the property before and after each chunk
  induction ks with
  | nil =>
    intro current ps hc h
    cases h
    simpa using hc
  | cons k ks ih =>
    intro current ps hc h
    rw [List.forall_mem_cons] at hstep
    have hcurrent : ∀ p ∈ (if k.field.opensPattern then some .fresh else current), P p := by
      split
      · intro p hp
        cases hp
        exact hfresh
      · exact hc
    rw [scan] at h
    split at h
    · obtain ⟨-, -, hrest⟩ := Run.of_outcome_bind_ok h
      exact ih hstep.2 (by simp) hrest
    · rename_i p hp
      obtain ⟨q, hq, h⟩ := Run.of_outcome_bind_ok h
      obtain ⟨qs, hqs, h⟩ := Run.of_outcome_bind_ok h
      cases h
      refine List.forall_mem_append.mpr ⟨?_, ih hstep.2 ?_ hqs⟩
      · split
        · simpa using hc
        · simp
      · intro r hr
        cases hr
        exact hstep.1 (hcurrent p hp) hq

theorem Block.normal_patterns {body : Text} {ps : List Pattern} (h : (patterns s body).outcome = .ok ps) :
    ∀ p ∈ ps, p.Normal s := by
  rw [patterns, Chunk.scan_eq, Cursor.ahead_ofText] at h
  refine Chunk.scan_keeps Pattern.normal_fresh (fun k hk p q hp hq => ?_) (by simp) h
  rw [Chunk.store_eq] at hq
  have hn : ∀ line ∈ k.lines, '\n' ∉ line := fun line hl =>
    Text.not_mem_of_mem_lines (Chunk.lines_subset_of_mem_cut hk hl)
  exact (Field.normal_entry k.begins hn).store hp hq

namespace Source

theorem normal_partialsOf {bodies : List Text} {ps : List Pattern} (h : (partialsOf s bodies).outcome = .ok ps) :
    ∀ p ∈ ps, p.Normal s := by
  induction bodies generalizing ps with
  | nil =>
    cases h
    exact nofun
  | cons body bodies ih =>
    rw [partialsOf] at h
    obtain ⟨qs, hqs, h⟩ := Run.of_outcome_bind_ok h
    obtain ⟨rs, hrs, h⟩ := Run.of_outcome_bind_ok h
    cases h
    exact List.forall_mem_append.mpr ⟨Block.normal_patterns hqs, ih hrs⟩

/-- **The patterns of a source text are normal**, and no two have the same name. -/
theorem patterns_normal {source : Text} {ps : List Pattern} (h : (patterns s source).outcome = .ok ps) :
    (ps.map Pattern.name).Nodup ∧ ∀ p ∈ ps, p.Normal s := by
  obtain ⟨qs, hqs, h⟩ := Run.of_outcome_bind_ok h
  cases h
  exact ⟨(Pattern.merged_merge qs).nodup, Pattern.normal_merge (normal_partialsOf hqs)⟩

/-- Blanks at the ends of lines, indentation in a fence, and a todo under a key that does not collect. -/
def untidy : Text := Text.unlines
  ["/**".toList, " * @pattern  a ".toList, " * @description b ".toList, " *".toList, " *   c".toList,
    " * @todo d ".toList, " * @meta todo  e".toList, " * @param { T }  [x = 1 ] -  f".toList,
    " * @example g".toList,
    " * \x60\x60\x60py".toList, " *    h  ".toList, " *      i".toList, " * \x60\x60\x60".toList, " */".toList]

theorem patterns_normal_untidy : ∃ p, (patterns { accumulating := [] } untidy).outcome = .ok [p] ∧
    p.metadata.entries = [(['t', 'o', 'd', 'o'], .single ['e'])] ∧ p.Normal { accumulating := [] } := by
  have hok : (patterns { accumulating := [] } untidy).outcome.toOption.map
      (List.map fun p => p.metadata.entries) = some [[(['t', 'o', 'd', 'o'], .single ['e'])]] := by decide +kernel
  cases h : (patterns { accumulating := [] } untidy).outcome with
  | error e => rw [h] at hok; cases hok
  | ok ps =>
    rw [h] at hok
    obtain ⟨p, rfl, hp⟩ := List.map_eq_singleton_iff.mp (Option.some.inj hok)
    exact ⟨p, rfl, hp, (patterns_normal h).2 p (List.mem_singleton.mpr rfl)⟩

end Source

end

end PatternBook
