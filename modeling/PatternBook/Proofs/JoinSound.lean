import PatternBook.Proofs.MergeSound
import PatternBook.Proofs.ScanSound

/-!
# One block or two

Fields stored on a pattern that already holds others make of it what they make of a fresh pattern, joined to it.
For the metadata this needs that a key always collects its values or always replaces them: a list that was begun
with a single text would be joined to what it should replace. So a pattern may be written in one block or in two
blocks of its name, unless both describe it.
-/

namespace PatternBook

/-! ## Metadata -/

namespace Metadata

/-- No key that collects its values holds a single text. -/
def Collected (s : Settings) (m : Metadata) : Prop := ∀ key ∈ s.accumulating, ∀ t, m.get? key ≠ some (.single t)

section
variable {s : Settings} {m : Metadata} (h : m.Collected s) {key : Text} (value : Text)
include h

theorem Collected.append : (m.append key value).Collected s := by
  intro j hj t
  rw [Metadata.append, get?_give]
  by_cases hk : key = j
  · rw [if_pos hk]
    rcases m.get? key with _ | old | old <;> simp [MetaValue.combine]
  · rw [if_neg hk]
    exact h j hj t

theorem Collected.set (hk : key ∉ s.accumulating) : (m.set key value).Collected s := by
  intro j hj t
  have hne : key ≠ j := by
    rintro rfl
    exact hk hj
  rw [Metadata.set, get?_give, if_neg hne]
  exact h j hj t

end

end Metadata

/-! ## Storing on a pattern that holds others -/

namespace Pattern

theorem join_setMeta (p q : Pattern) (key value : Text) :
    (p.join q).setMeta key value = p.join (q.setMeta key value) := by
  have hm : (p.metadata.merge q.metadata).set key value = p.metadata.merge (q.metadata.set key value) :=
    Metadata.merge_give p.metadata (.inl ⟨value, rfl⟩)
  exact congrArg (fun m => { p.join q with metadata := m }) hm

theorem join_appendMeta (p : Pattern) {q : Pattern} {key : Text} (h : ∀ t, q.metadata.get? key ≠ some (.single t))
    (value : Text) : (p.join q).appendMeta key value = p.join (q.appendMeta key value) := by
  have hm : (p.metadata.merge q.metadata).append key value = p.metadata.merge (q.metadata.append key value) :=
    Metadata.merge_give p.metadata (.inr h)
  exact congrArg (fun m => { p.join q with metadata := m }) hm

theorem join_addParameter (p q : Pattern) (parameter : Parameter) :
    (p.join q).addParameter parameter = p.join (q.addParameter parameter) := by
  simp [join, addParameter]

theorem join_addExample (p q : Pattern) (e : Example) : (p.join q).addExample e = p.join (q.addExample e) := by
  simp [join, addExample]

def opened (name : Text) : Pattern := { Pattern.fresh with name := name }

theorem join_opened (p : Pattern) (name : Text) : p.join (opened name) = p := by
  obtain ⟨own, description, parameters, examples, metadata⟩ := p
  have hm : metadata.merge .empty = metadata := rfl
  cases description <;> simp [join, opened, fresh, hm]

theorem merge_pair {p q : Pattern} (h : p.name = q.name) : merge [p, q] = [p.join q] := by
  have hp : merge [p, q] = gather (merge [p]) q := rfl
  rw [hp, merge_singleton, gather_cons, if_pos h]

end Pattern

namespace Entry

section
variable {s : Settings} (htodo : ['t', 'o', 'd', 'o'] ∈ s.accumulating)
include htodo

/-- **One entry**, stored on a pattern that holds others. -/
theorem store_join {p q : Pattern} (hname : p.name = q.name) (hc : q.metadata.Collected s) {e : Entry}
    (hn : e.named? = none) (hd : e.described? = none ∨ p.description = []) :
    e.store s (p.join q) = p.join <$> e.store s q := by
  cases e with
  | name value => cases hn
  | description value =>
    obtain hd | hd := hd
    · cases hd
    · have hj : { p.join q with description := value } = p.join { q with description := value } := by
        simp [Pattern.join, hd]
      exact congrArg Run.done hj
  | parameter d =>
    have hj : (p.join q).name = q.name := hname
    cases hr : Parameter.read? d with
    | some parameter =>
      rw [store_parameter hr, store_parameter hr, Pattern.join_addParameter]
      rfl
    | none =>
      rw [store_malformed hr, store_malformed hr, hj]
      by_cases hs : s.strict = true
      · rw [if_pos hs, if_pos hs]
        rfl
      · rw [if_neg hs, if_neg hs]
        rfl
  | usage text blocks => exact congrArg Run.done (Pattern.join_addExample p q ⟨text, blocks⟩)
  | metadata pair =>
    obtain _ | ⟨key, value⟩ := pair
    · exact congrArg (fun name => Run.note (.ignoredMetadata name) (p.join q)) hname
    · refine congrArg Run.done ?_
      by_cases hk : key ∈ s.accumulating
      · rw [if_pos (by simpa using hk), if_pos (by simpa using hk)]
        exact Pattern.join_appendMeta p (hc key hk) value
      · rw [if_neg (by simpa using hk), if_neg (by simpa using hk)]
        exact Pattern.join_setMeta p q key value
  | todo item =>
    refine congrArg Run.done ?_
    by_cases hi : item.isEmpty = true
    · rw [if_pos hi, if_pos hi]
    · rw [if_neg hi, if_neg hi]
      exact Pattern.join_appendMeta p (hc _ htodo) item

end

theorem store_collected {s : Settings} {p q : Pattern} {e : Entry} (hc : p.metadata.Collected s)
    (h : (e.store s p).outcome = .ok q) : q.metadata.Collected s := by
  cases e with
  | name value => cases h; exact hc
  | description value => cases h; exact hc
  | usage text blocks => cases h; exact hc
  | parameter d =>
    cases hr : Parameter.read? d with
    | some parameter =>
      rw [store_parameter hr] at h
      cases h
      exact hc
    | none =>
      rw [store_malformed hr] at h
      by_cases hs : s.strict = true
      · rw [if_pos hs] at h
        cases h
      · rw [if_neg hs] at h
        cases h
        exact hc
  | metadata pair =>
    obtain _ | ⟨key, value⟩ := pair
    · cases h
      exact hc
    · cases h
      by_cases hk : key ∈ s.accumulating
      · rw [if_pos (by simpa using hk)]
        exact hc.append value
      · rw [if_neg (by simpa using hk)]
        exact hc.set value hk
  | todo item =>
    cases h
    by_cases hi : item.isEmpty = true
    · rw [if_pos hi]
      exact hc
    · rw [if_neg hi]
      exact hc.append item

/-- Entries that say no name or description keep those of the pattern. -/
theorem name_of_foldlM {s : Settings} {es : List Entry} (hn : ∀ e ∈ es, e.named? = none) {p q : Pattern}
    (h : (es.foldlM (store s) p).outcome = .ok q) : q.name = p.name := by
  refine Run.foldlM_keeps (P := fun r => r.name = p.name) (fun e he b c hb hc => ?_) rfl h
  rw [(store_of_ok hc).1, hn e he, ← hb]
  rfl

theorem description_of_foldlM {s : Settings} {es : List Entry} (hd : ∀ e ∈ es, e.described? = none) {p q : Pattern}
    (h : (es.foldlM (store s) p).outcome = .ok q) : q.description = p.description := by
  refine Run.foldlM_keeps (P := fun r => r.description = p.description) (fun e he b c hb hc => ?_) rfl h
  rw [(store_of_ok hc).2, hd e he, ← hb]
  rfl

/-- **All entries**, stored on a pattern that holds others. -/
theorem foldlM_store_join {s : Settings} (htodo : ['t', 'o', 'd', 'o'] ∈ s.accumulating) {p : Pattern}
    {es : List Entry} (hn : ∀ e ∈ es, e.named? = none)
    (hd : (∀ e ∈ es, e.described? = none) ∨ p.description = []) {q : Pattern} (hname : p.name = q.name)
    (hc : q.metadata.Collected s) :
    es.foldlM (store s) (p.join q) = p.join <$> es.foldlM (store s) q := by
  induction es generalizing q with
  | nil => rfl
  | cons e es ih =>
    rw [List.forall_mem_cons] at hn
    have hde : e.described? = none ∨ p.description = [] := hd.imp_left fun h => h e (List.mem_cons_self ..)
    have hdes : (∀ e ∈ es, e.described? = none) ∨ p.description = [] :=
      hd.imp_left fun h e' he => h e' (List.mem_cons_of_mem e he)
    rw [List.foldlM_cons, List.foldlM_cons, store_join htodo hname hc hn.1 hde, bind_map_left, map_bind]
    refine Run.bind_congr_of_ok fun r hr => ?_
    have hrname : p.name = r.name := by rw [(store_of_ok hr).1, hn.1, hname]; rfl
    exact ih hn.2 hdes hrname (store_collected hc hr)

end Entry

/-! ## Blocks of one name -/

namespace Chunk

theorem head_mem_of_mem_cut {ls : List Text} {k : Chunk} (h : k ∈ cut ls) : k.head ∈ ls :=
  lines_subset_of_mem_cut h (List.mem_cons_self ..)

/-- Where a field begins, the lines may be cut in two. -/
theorem cut_append (ls : List Text) {ms : List Text} (h : ∀ line ∈ ms.head?, Field.isFieldLine line = true) :
    cut (ls ++ ms) = cut ls ++ cut ms := by
  have hms : ms.dropWhile Field.isInside = ms := by
    cases ms with
    | nil => rfl
    | cons line ms =>
      have hl : Field.isInside line = false := Field.isInside_eq_false.mpr (h line rfl)
      exact List.dropWhile_cons_of_neg (by simp [hl])
  refine ((eq_cut_iff (cut ls ++ cut ms) (ls ++ ms)).mp ?_).symm
  rw [List.flatMap_append, flatMap_lines_cut, flatMap_lines_cut, List.dropWhile_append, hms]
  cases hls : ls.dropWhile Field.isInside <;> simp

theorem opensPattern_of_mem_cut {ls : List Text} (h : ∀ line ∈ ls, Field.ofLine? line ≠ some .name) {k : Chunk}
    (hk : k ∈ cut ls) : k.field.opensPattern = false := by
  have hne := h k.head (head_mem_of_mem_cut hk)
  rw [k.begins] at hne
  simpa [Field.opensPattern] using hne

theorem named?_content {ls : List Text} (h : ∀ line ∈ ls, Field.ofLine? line ≠ some .name) :
    ∀ e ∈ (cut ls).map content, e.named? = none := by
  intro e he
  obtain ⟨k, hk, rfl⟩ := List.mem_map.mp he
  rw [content, named?_entry]
  exact nameOn?_head_of_continues (opensPattern_of_mem_cut h hk)

theorem described?_content {ls : List Text} (h : ∀ line ∈ ls, Field.ofLine? line ≠ some .description) :
    ∀ e ∈ (cut ls).map content, e.described? = none := by
  intro e he
  obtain ⟨k, hk, rfl⟩ := List.mem_map.mp he
  have hne := h k.head (head_mem_of_mem_cut hk)
  rw [k.begins] at hne
  rw [content]
  cases hf : k.field with
  | description => exact absurd (congrArg some hf) hne
  | _ => rfl

end Chunk

namespace Block

open Pattern (opened)

def storeLines (s : Settings) (ls : List Text) (p : Pattern) : Run ParseError Pattern :=
  ((Chunk.cut ls).map Chunk.content).foldlM (Entry.store s) p

theorem storeLines_append (s : Settings) (ls : List Text) {ms : List Text}
    (h : ∀ line ∈ ms.head?, Field.isFieldLine line = true) (p : Pattern) :
    storeLines s (ls ++ ms) p = storeLines s ls p >>= storeLines s ms := by
  rw [storeLines, Chunk.cut_append ls h, List.map_append, List.foldlM_append]
  rfl

theorem storeLines_join {s : Settings} (htodo : ['t', 'o', 'd', 'o'] ∈ s.accumulating) {p : Pattern} {name : Text}
    (hp : p.name = name) {ms : List Text} (hnames : ∀ line ∈ ms, Field.ofLine? line ≠ some .name)
    (hd : (∀ line ∈ ms, Field.ofLine? line ≠ some .description) ∨ p.description = []) :
    storeLines s ms p = p.join <$> storeLines s ms (opened name) := by
  have hc : (opened name).metadata.Collected s := by
    intro key _ t h
    cases h
  have hj :=
    Entry.foldlM_store_join htodo (Chunk.named?_content hnames) (hd.imp_left Chunk.described?_content) hp hc
  rwa [Pattern.join_opened] at hj

theorem patterns_named (s : Settings) {head : Text} {ls : List Text} (hn : ∀ line ∈ head :: ls, '\n' ∉ line)
    (hh : Field.ofLine? head = some .name) (hls : ∀ line ∈ ls, Field.ofLine? line ≠ some .name) :
    patterns s (Text.unlines (head :: ls)) = do
      let p ← storeLines s ls (opened (Field.single Field.name.tag head))
      return [p] := by
  obtain ⟨k, hk, hf, hkh, -⟩ := Chunk.cut_cons_field ls hh
  have ho : k.field.opensPattern = true := by rw [hf]; rfl
  have hstore : k.store s .fresh = .done (opened (Field.single Field.name.tag head)) := by
    rw [Chunk.store_eq, hf, hkh]
    rfl
  have hscan : ∀ p, Chunk.scan s (some p) (Chunk.cut ls) = do
      let q ← storeLines s ls p
      return [q] := by
    intro p
    rw [Chunk.scan_continuing s fun j hj => Chunk.opensPattern_of_mem_cut hls hj, storeLines, List.foldlM_map]
    simp only [Chunk.store_eq]
    rfl
  rw [patterns, Chunk.scan_eq, Cursor.ahead_ofText, Text.lines_unlines (List.cons_ne_nil head ls) hn, hk,
    Chunk.scan, if_pos ho]
  dsimp only
  rw [hstore, Run.done_bind, hscan]
  simp [ho]

/-- **One block or two.** A pattern is the same, merged, whether its fields stand in one block or in two blocks of
its name, unless both describe it. Error and notices are the same as well. -/
theorem merge_patterns_append (s : Settings) (htodo : ['t', 'o', 'd', 'o'] ∈ s.accumulating) (head : Text)
    (ls ms : List Text) (hn : ∀ line ∈ head :: (ls ++ ms), '\n' ∉ line) (hh : Field.ofLine? head = some .name)
    (hnames : ∀ line ∈ ls ++ ms, Field.ofLine? line ≠ some .name)
    (hms : ∀ line ∈ ms.head?, Field.isFieldLine line = true)
    (hd : ¬((∃ line ∈ ls, Field.ofLine? line = some .description) ∧
      ∃ line ∈ ms, Field.ofLine? line = some .description)) :
    (do
      let ps ← patterns s (Text.unlines (head :: (ls ++ ms)))
      return Pattern.merge ps) =
    (do
      let ps ← patterns s (Text.unlines (head :: ls))
      let qs ← patterns s (Text.unlines (head :: ms))
      return Pattern.merge (ps ++ qs)) := by
  rw [List.forall_mem_cons, List.forall_mem_append] at hn
  rw [List.forall_mem_append] at hnames
  rw [patterns_named s (List.forall_mem_cons.mpr ⟨hn.1, List.forall_mem_append.mpr hn.2⟩) hh
      (List.forall_mem_append.mpr hnames),
    patterns_named s (List.forall_mem_cons.mpr ⟨hn.1, hn.2.1⟩) hh hnames.1,
    patterns_named s (List.forall_mem_cons.mpr ⟨hn.1, hn.2.2⟩) hh hnames.2, storeLines_append s ls hms]
  simp only [bind_assoc, pure_bind]
  refine Run.bind_congr_of_ok fun p hp => ?_
  have hpname : p.name = Field.single Field.name.tag head := Entry.name_of_foldlM (Chunk.named?_content hnames.1) hp
  have hpd : (∀ line ∈ ms, Field.ofLine? line ≠ some .description) ∨ p.description = [] := by
    by_cases hls : ∃ line ∈ ls, Field.ofLine? line = some .description
    · exact .inl fun line hl hf => hd ⟨hls, line, hl, hf⟩
    · have hnone : ∀ line ∈ ls, Field.ofLine? line ≠ some .description := fun line hl hf => hls ⟨line, hl, hf⟩
      exact .inr (Entry.description_of_foldlM (Chunk.described?_content hnone) hp)
  rw [storeLines_join htodo hpname hnames.2 hpd, bind_map_left]
  refine Run.bind_congr_of_ok fun q hq => ?_
  have hqname : q.name = Field.single Field.name.tag head := Entry.name_of_foldlM (Chunk.named?_content hnames.2) hq
  rw [Pattern.merge_singleton, List.singleton_append, Pattern.merge_pair (hpname.trans hqname.symm)]

def firstLines : List Text := ["@todo b".toList, "c".toList, "@meta k v".toList, "@description d".toList]

def laterLines : List Text := ["@meta todo e".toList, "@meta k w".toList, "@param {T} x".toList]

theorem merge_patterns_append_todo :
    (do
      let ps ← patterns {} (Text.unlines ("@pattern a".toList :: (firstLines ++ laterLines)))
      return Pattern.merge ps) =
    (do
      let ps ← patterns {} (Text.unlines ("@pattern a".toList :: firstLines))
      let qs ← patterns {} (Text.unlines ("@pattern a".toList :: laterLines))
      return Pattern.merge (ps ++ qs)) ∧
    (patterns {} (Text.unlines ("@pattern a".toList :: (firstLines ++ laterLines)))).outcome.toOption =
      some [{ name := ['a'], description := ['d'], parameters := [{ name := ['x'], type := ['T'] }]
              metadata := .ofList [(['t', 'o', 'd', 'o'], .many [['b', ' ', 'c'], ['e']]),
                (['k'], .single ['w'])] }] := by
  constructor
  · apply merge_patterns_append <;> decide +kernel
  · decide +kernel

end Block

end PatternBook
