import PatternBook.Proofs.MetadataLemmas
import PatternBook.Proofs.PassageSound

/-!
# A written pattern is read back

The chunks of the comment's body are the passages of the pattern, the first without its star. Storing
them one after the other rebuilds the pattern, so reading the comment of a pattern that can be written,
and that fits, gives the pattern and no notice.
-/

namespace PatternBook

/-! ## Storing all passages -/

namespace Pattern

theorem foldl_addParameter (qs : List Parameter) : ∀ p : Pattern,
    qs.foldl addParameter p = { p with parameters := p.parameters ++ qs } := by
  induction qs with
  | nil => intro p; simp
  | cons q qs ih =>
    intro p
    rw [List.foldl_cons, ih]
    simp [addParameter]

theorem foldl_addExample (es : List Example) : ∀ p : Pattern,
    es.foldl addExample p = { p with examples := p.examples ++ es } := by
  induction es with
  | nil => intro p; simp
  | cons e es ih =>
    intro p
    rw [List.foldl_cons, ih]
    simp [addExample]

theorem foldl_appendMeta (key : Text) (vs : List Text) : ∀ p : Pattern,
    vs.foldl (fun p v => p.appendMeta key v) p =
      { p with metadata := vs.foldl (fun m v => m.append key v) p.metadata } := by
  induction vs with
  | nil => intro p; rfl
  | cons v vs ih => intro p; exact ih _

end Pattern

open Passage (stored stored_append stored_map)

theorem stored_entry (s : Settings) {e : Text × MetaValue}
    (hkey : e.1 ≠ [] ∧ ∀ c ∈ e.1, Text.isBlank c = false) (hv : e.2.Writable s e.1) {p : Pattern}
    (hnew : e.1 ∉ p.metadata.keys) :
    stored s (Metadata.passages e) p = .done { p with metadata := p.metadata.give e.1 e.2 } := by
  obtain ⟨key, value⟩ := e
  cases value with
  | single v =>
    obtain ⟨hacc, hline⟩ := hv
    have hstore : ∀ w ∈ [v], ∀ p, (Metadata.passage key w).chunk.store s p = .done (p.setMeta key w) := by
      intro w hw p
      rw [List.mem_singleton.mp hw, store_metadata s p hkey.1 hkey.2 hline]
      simp [hacc]
    exact stored_map hstore p
  | many vs =>
    obtain ⟨hacc, hne, hlines⟩ := hv
    have hstore : ∀ v ∈ vs, ∀ p, (Metadata.passage key v).chunk.store s p = .done (p.appendMeta key v) := by
      intro v hv p
      rw [store_metadata s p hkey.1 hkey.2 (hlines v hv)]
      simp [hacc]
    -- the first value makes the list, the others are appended to it
    obtain ⟨v, vs, rfl⟩ := List.exists_cons_of_ne_nil hne
    refine (stored_map hstore p).trans ?_
    rw [Pattern.foldl_appendMeta]
    exact congrArg (fun m => Run.done { p with metadata := m }) (Metadata.foldl_append hnew vs [v])

theorem stored_entries (s : Settings) : ∀ {es : List (Text × MetaValue)} {p : Pattern},
    (∀ e ∈ es, (e.1 ≠ [] ∧ ∀ c ∈ e.1, Text.isBlank c = false) ∧ e.2.Writable s e.1) →
    (Assoc.keys (p.metadata.entries ++ es)).Nodup →
      stored s (es.flatMap Metadata.passages) p =
        .done { p with metadata := es.foldl (fun m e => m.give e.1 e.2) p.metadata }
  | [], p, _, _ => rfl
  | e :: es, p, h, hn => by
    have hnew := Metadata.not_mem_keys hn
    obtain ⟨hkey, hv⟩ := h e (List.mem_cons_self ..)
    rw [List.flatMap_cons, stored_append, stored_entry s hkey hv hnew]
    refine (Run.done_andThen _ _).trans (stored_entries s (fun e' he => h e' (List.mem_cons_of_mem e he)) ?_)
    show (Assoc.keys ((p.metadata.give e.1 e.2).entries ++ es)).Nodup
    rwa [Metadata.give_new hnew, List.append_assoc]

theorem Pattern.descriptionPassages_eq {p : Pattern} (hne : p.description ≠ []) {d : Text} {ds : List Text}
    (hd : Text.lines p.description = d :: ds) :
    p.descriptionPassages = [⟨.description, d, separated ds⟩] := by
  simp [descriptionPassages, hne, hd]

section
variable {s : Settings} {p : Pattern} (hw : p.Writable s)
include hw

theorem stored_description
    (hin : ∀ x ∈ p.descriptionPassages, ∀ line ∈ x.body, Field.isFieldLine line = false) {q : Pattern}
    (hq : q.description = []) :
    stored s p.descriptionPassages q = .done { q with description := p.description } := by
  by_cases hne : p.description = []
  · have hnone : p.descriptionPassages = [] := by simp [Pattern.descriptionPassages, hne]
    rw [hnone, hne, ← hq]; rfl
  · obtain ⟨d, ds, hd⟩ := List.exists_cons_of_ne_nil (Text.lines_ne_nil p.description)
    have hlines := hw.description.resolve_left hne
    rw [hd] at hlines
    rw [Pattern.descriptionPassages_eq hne hd] at hin ⊢
    have hstore := store_description s q hlines (hin _ (List.mem_singleton_self _))
    rw [← hd, Text.unlines_lines] at hstore
    exact (bind_pure _).trans hstore

variable (hf : p.Fits)
include hf

/-- The passages behind the name put everything else on a pattern that has the name only. -/
theorem stored_passages : stored s p.passages { name := p.name } = .done p := by
  have hin := hf.inside
  simp only [Pattern.passages, List.mem_append, or_imp, forall_and] at hin
  obtain ⟨⟨⟨hdesc, -⟩, hex⟩, -⟩ := hin
  have hpar : ∀ q ∈ p.parameters, ∀ p, q.passage.chunk.store s p = .done (p.addParameter q) :=
    fun q hq p => store_parameter s p (hw.parameters q hq)
  have hexs : ∀ e ∈ p.examples, ∀ p, e.passage.chunk.store s p = .done (p.addExample e) :=
    fun e he p => store_example s p (hw.examples e he) (hex _ (List.mem_map_of_mem he))
  rw [Pattern.passages, stored_append, stored_append, stored_append, stored_description hw hdesc rfl]
  simp only [bind, Run.done_andThen, stored_map hpar, stored_map hexs, Pattern.foldl_addParameter,
    Pattern.foldl_addExample, List.nil_append]
  refine (stored_entries s (fun e he => ⟨hw.keys e he, hw.values e he⟩) ?_).trans ?_
  · exact p.metadata.nodup
  · exact congrArg (fun m => Run.done { p with metadata := m }) (Metadata.empty_merge p.metadata)

end

/-! ## The comment -/

theorem Pattern.forall_passages {p : Pattern} {P : Passage → Prop}
    (hdesc : ∀ d ds, Text.lines p.description = d :: ds → P ⟨.description, d, separated ds⟩)
    (hpar : ∀ q ∈ p.parameters, P q.passage) (hex : ∀ e ∈ p.examples, P e.passage)
    (hmeta : ∀ e ∈ p.metadata.entries, ∀ v ∈ e.2.texts, P (Metadata.passage e.1 v)) :
    ∀ x ∈ p.passages, P x := by
  intro x hx
  simp only [passages, List.mem_append] at hx
  rcases hx with ((hx | hx) | hx) | hx
  · obtain ⟨d, ds, hd⟩ := List.exists_cons_of_ne_nil (Text.lines_ne_nil p.description)
    by_cases hne : p.description = []
    · simp [descriptionPassages, hne] at hx
    · rw [descriptionPassages_eq hne hd, List.mem_singleton] at hx
      exact hx ▸ hdesc d ds hd
  · obtain ⟨q, hq, rfl⟩ := List.mem_map.mp hx
    exact hpar q hq
  · obtain ⟨e, he, rfl⟩ := List.mem_map.mp hx
    exact hex e he
  · obtain ⟨e, he, hx⟩ := List.mem_flatMap.mp hx
    obtain ⟨v, hv, rfl⟩ := List.mem_map.mp hx
    exact hmeta e he v hv

section
variable {s : Settings} {p : Pattern}

theorem newline_not_mem_padded {value : Text} (h : '\n' ∉ value) : '\n' ∉ padded value := by
  unfold padded
  split
  · simp
  · simpa using h

theorem newline_not_mem_tag (f : Field) : '\n' ∉ f.tag := by
  cases f <;> decide

theorem newline_not_mem_lines {x : Passage} (hv : '\n' ∉ x.value) (hb : ∀ line ∈ x.body, '\n' ∉ line) :
    ∀ line ∈ x.lines, '\n' ∉ line := by
  intro line hl
  rcases List.mem_cons.mp hl with rfl | hl
  · rw [Passage.head, List.mem_append, not_or]
    exact ⟨newline_not_mem_tag x.field, newline_not_mem_padded hv⟩
  · exact hb line hl

theorem newline_not_mem_declaration {q : Parameter} (h : q.Writable) : '\n' ∉ q.declaration := by
  have hname := h.name_line.1
  have htype := h.type_line.1
  have hspec : '\n' ∉ q.spec := by
    unfold Parameter.spec
    split
    · cases hd : q.default with
      | none => simp [Parameter.equals, hname]
      | some d => simp [Parameter.equals, hname, (h.default_line d hd).1]
    · exact hname
  have hremark : '\n' ∉ q.remark := by
    unfold Parameter.remark
    split
    · simp
    · simp [h.description_line.1]
  simp [Parameter.declaration, htype, hspec, newline_not_mem_padded hremark]

theorem oneLine_texts {key : Text} {value : MetaValue} (h : value.Writable s key) :
    ∀ v ∈ value.texts, OneLine v := by
  cases value with
  | single v => simpa [MetaValue.texts] using h.2
  | many vs => exact h.2.2

theorem newline_not_mem_passage (hw : p.Writable s) :
    ∀ x ∈ p.passages, '\n' ∉ x.value ∧ ∀ line ∈ x.body, '\n' ∉ line := by
  apply Pattern.forall_passages
  · intro d ds hd
    have hn : ∀ e ∈ d :: ds, '\n' ∉ e := fun e he => Text.not_mem_of_mem_lines (hd ▸ he)
    refine ⟨hn d (List.mem_cons_self ..), fun line hl => ?_⟩
    obtain ⟨e, he, hl⟩ := List.mem_flatMap.mp hl
    simp only [List.mem_cons, List.not_mem_nil, or_false] at hl
    rcases hl with rfl | rfl
    · simp
    · exact hn line (List.mem_cons_of_mem d he)
  · intro q hq
    exact ⟨newline_not_mem_declaration (hw.parameters q hq), by simp [Parameter.passage]⟩
  · intro e he
    exact ⟨(hw.examples e he).description_line.1, CodeBlock.newline_not_mem_blocks (hw.examples e he).blocks⟩
  · intro e he v hv
    have hk : '\n' ∉ e.1 := fun hm => absurd ((hw.keys e he).2 _ hm) (by decide)
    have hv' := newline_not_mem_padded (oneLine_texts (hw.values e he) v hv).1
    exact ⟨by simp [Metadata.passage, hk, hv'], by simp [Metadata.passage]⟩

theorem newline_not_mem_page (hw : p.Writable s) : ∀ line ∈ p.page, '\n' ∉ line := by
  intro line hl
  obtain ⟨x, hx, hl⟩ := List.mem_flatMap.mp hl
  rcases List.mem_cons.mp hx with rfl | hx
  · exact newline_not_mem_lines hw.name.1 (by simp) line hl
  · obtain ⟨hv, hb⟩ := newline_not_mem_passage hw x hx
    exact newline_not_mem_lines hv hb line hl

end

namespace Pattern

def nameLine (p : Pattern) : Text := Passage.head ⟨.name, p.name, []⟩

def rest (p : Pattern) : List Text := p.passages.flatMap Passage.lines

/-- The lines of the comment's body. The first has lost its star to the border. -/
def bodyLines (p : Pattern) : List Text := p.nameLine :: p.rest.map decorate

variable {p : Pattern}

theorem page_eq (p : Pattern) : p.page = p.nameLine :: p.rest := rfl

def interior (p : Pattern) : Text := Text.unlines (['*'] :: p.page.map decorate ++ [[' ']])

theorem render_eq (p : Pattern) : p.render = Comment.opening ++ p.interior ++ Comment.closing := by
  rw [interior, Text.unlines_concat _ (List.cons_ne_nil _ _), page_eq, List.map_cons, Text.unlines_cons_cons]
  simp [render, page_eq, Comment.opening, Comment.closing]

theorem interior_eq (p : Pattern) :
    p.interior = ['*', '\n', ' ', '*', ' '] ++ Text.unlines p.bodyLines ++ ['\n', ' '] := by
  have hd : decorate p.nameLine = [' ', '*', ' '] ++ p.nameLine := rfl
  rw [interior, Text.unlines_concat _ (List.cons_ne_nil _ _), page_eq, List.map_cons, Text.unlines_cons_cons,
    hd, Text.unlines_cons_append]
  simp [bodyLines]

theorem closing_infix_decorate {line : Text} (h : Comment.closing <:+: decorate line) :
    Comment.closing <:+: line := by
  simp only [decorate, List.infix_cons_iff] at h
  rcases h with ⟨t, ht⟩ | ⟨t, ht⟩ | ⟨t, ht⟩ | h
  · simp [Comment.closing] at ht
  · simp [Comment.closing] at ht
  · simp [Comment.closing] at ht
  · exact h

theorem head?_bodyLines (p : Pattern) : (Text.unlines p.bodyLines).head? = some '@' := by
  have hne : p.nameLine ≠ [] := List.cons_ne_nil _ _
  rw [bodyLines, Text.head?_unlines hne]; rfl

variable (hf : p.Fits)
include hf

theorem not_closing_infix_interior : ¬ Comment.closing <:+: p.interior := by
  intro h
  obtain ⟨l, hl, hi⟩ := Text.infix_unlines (by decide) (by decide) h
  simp only [List.cons_append, List.mem_cons, List.mem_append, List.mem_map, List.not_mem_nil, or_false] at hl
  rcases hl with rfl | ⟨line, hl, rfl⟩ | rfl
  · exact absurd hi (by decide)
  · exact hf.not_closed line hl (closing_infix_decorate hi)
  · exact absurd hi (by decide)

theorem getLast?_bodyLines {line : Text} (hl : line ∈ p.bodyLines.getLast?) :
    ∃ c ∈ line.getLast?, Comment.isBorder c = false := by
  rcases List.eq_nil_or_concat p.rest with hr | ⟨init, last, hr⟩
  · rw [bodyLines, hr] at hl
    exact hf.last_kept line (by rw [page_eq, hr]; exact hl)
  · obtain ⟨c, hc, hb⟩ := hf.last_kept last (by rw [page_eq, hr]; simp [List.getLast?_cons])
    have hline : decorate last = line := by simpa [bodyLines, hr, List.getLast?_cons] using hl
    obtain ⟨t, ht⟩ := List.getLast?_eq_some_iff.mp hc
    refine ⟨c, ?_, hb⟩
    rw [← hline, decorate, ht]
    simp [List.getLast?_cons]

theorem bodyLines_trimmed : Text.Trimmed Comment.isBorder (Text.unlines p.bodyLines) := by
  apply Text.trimmed_unlines
  · rintro l ⟨⟩
    simp +decide [nameLine, Passage.head, Field.tag]
  · intro l hl
    obtain ⟨c, hc, hb⟩ := getLast?_bodyLines hf hl
    rw [Option.mem_def] at hc
    refine ⟨by rintro rfl; simp at hc, fun d hd => ?_⟩
    rw [Option.mem_def, hc] at hd
    exact Option.some.inj hd ▸ hb

theorem bodies_render : Comment.bodies p.render = [Text.unlines p.bodyLines] := by
  have hhead := head?_bodyLines p
  have hne : Text.unlines p.bodyLines ≠ [] := by
    intro h
    rw [h] at hhead
    cases hhead
  have hn : Comment.nearest? p.render = some (p.interior, []) := by
    have ho : Comment.cutMark? Comment.opening p.render = some ([], p.interior ++ Comment.closing) := by
      rw [render_eq, List.append_assoc]; rfl
    have hc := Comment.cutMark?_closing [] (not_closing_infix_interior hf)
    rw [List.append_nil] at hc
    simp only [Comment.nearest?, ho, hc]
  -- the tag of the name ends the border run in front, so the star of the close is not part of it
  have hb : ¬ ∀ c ∈ p.interior, Comment.isBorder c = true := by
    intro h
    have hm : '@' ∈ p.interior := by
      rw [interior_eq]
      simp [List.mem_of_head? hhead]
    exact absurd (h '@' hm) (by decide)
  have htrim : Text.trim Comment.isBorder p.interior = Text.unlines p.bodyLines := by
    rw [interior_eq]
    exact Text.trim_append (by decide) (by decide) (bodyLines_trimmed hf) hne
  rw [Comment.bodies_of_some (Comment.next?_of_inside hn hb), htrim, Comment.bodies_of_none (by rfl)]

end Pattern

/-! ## Reading the comment -/

namespace Chunk

theorem scan_opening (s : Settings) {k : Chunk} {ks : List Chunk} {p q : Pattern}
    (hk : k.field.opensPattern = true) (hp : k.store s .fresh = .done p)
    (hks : ∀ k ∈ ks, k.field.opensPattern = false) (hq : ks.foldlM (fun p k => k.store s p) p = .done q) :
    scan s none (k :: ks) = .done [q] := by
  have hscan : scan s (some p) ks = .done [q] := by rw [scan_continuing s hks, hq]; rfl
  rw [scan, if_pos hk]
  simp only [bind, hp, Run.done_andThen, hscan]
  simp [pure]

end Chunk

namespace Pattern

def nameChunk (p : Pattern) : Chunk := .ofHead (Passage.ofLine?_head ⟨.name, p.name, []⟩)

theorem opensPattern_passages (p : Pattern) : ∀ x ∈ p.passages, x.field.opensPattern = false := by
  apply forall_passages <;> intros <;> rfl

section
variable {s : Settings} {p : Pattern}

theorem store_nameChunk (hw : p.Writable s) : p.nameChunk.store s .fresh = .done { name := p.name } := by
  have hsingle : Field.single Field.name.tag p.nameLine = p.name := by
    have := Field.single_tag_append .name (Passage.isWord_padded p.name) (d := []) (by simp)
    exact this.trans (strip_padded hw.name.2)
  rw [Chunk.store_eq]
  exact congrArg (Entry.store s .fresh) (congrArg Entry.name hsingle)

theorem cut_bodyLines (hf : p.Fits) :
    Chunk.cut p.bodyLines = p.nameChunk :: p.passages.map Passage.chunk := by
  have hlines : (p.passages.map Passage.chunk).flatMap Chunk.lines = p.rest.map decorate := by
    rw [rest, List.flatMap_map, List.map_flatMap]
    exact List.flatMap_congr fun x hx => Passage.lines_chunk (hf.inside x hx)
  have hbody : p.bodyLines = (p.nameChunk :: p.passages.map Passage.chunk).flatMap Chunk.lines := by
    rw [List.flatMap_cons, hlines]; rfl
  rw [hbody, Chunk.cut_flatMap_lines]

variable (hw : p.Writable s) (hf : p.Fits)
include hw hf

theorem patterns_body : Block.patterns s (Text.unlines p.bodyLines) = .done [p] := by
  have hn : ∀ line ∈ p.bodyLines, '\n' ∉ line := by
    have hpage := newline_not_mem_page hw
    intro line hl
    rcases List.mem_cons.mp hl with rfl | hl
    · exact hpage _ (List.mem_cons_self ..)
    · obtain ⟨l, hm, rfl⟩ := List.mem_map.mp hl
      simpa [decorate] using hpage l (List.mem_cons_of_mem _ hm)
  have hopens : ∀ k ∈ p.passages.map Passage.chunk, k.field.opensPattern = false := by
    intro k hk
    obtain ⟨x, hx, rfl⟩ := List.mem_map.mp hk
    exact opensPattern_passages p x hx
  have hne : p.bodyLines ≠ [] := List.cons_ne_nil _ _
  rw [Block.patterns, Chunk.scan_eq, Cursor.ahead_ofText, Text.lines_unlines hne hn, cut_bodyLines hf]
  exact Chunk.scan_opening s rfl (store_nameChunk hw) hopens (stored_passages hw hf)

end

/-- **Round trip.** Reading the comment of a pattern gives the pattern, and no notice. -/
theorem patterns_render (s : Settings) (p : Pattern) (hw : p.Writable s) (hf : p.Fits) :
    Source.patterns s p.render = .done [p] := by
  have hpartials : Source.partials s p.render = .done [p] := by
    rw [Source.partials, bodies_render hf, Source.partialsOf, patterns_body hw hf]
    rfl
  rw [Source.patterns, hpartials]
  exact congrArg Run.done (merge_singleton p)

def box : Pattern where
  name := ['B', 'o', 'x']
  description := ['A', ' ', 'b', '\n', '*', ' ', 'c']
  parameters := [
    { name := ['x'], type := ['{', 'a', '}', '|', 'b'], description := ['-', 'd'] },
    { name := ['y', ' ', 'z'], optional := true },
    { name := ['w'], default := some ['p', ' ', '=', 'q'], optional := true }]
  examples := [
    { description := ['u']
      blocks := [{ syntaxName := some ['j', 's'], code := ['i', '\n', '\n', ' ', 'j'] }, { code := [] }] },
    {}]
  metadata := .ofList [(['t', 'o', 'd', 'o'], .many [['m'], [], ['n']]), (['k', '-'], .single ['v'])]

theorem patterns_render_box : box.Writable {} ∧ box.Fits ∧ Source.patterns {} box.render = .done [box] := by
  have hw : box.Writable {} := by decide +kernel
  have hf : box.Fits := by decide +kernel
  exact ⟨hw, hf, patterns_render {} box hw hf⟩

def Misread (p : Pattern) (ps : List Pattern) : Prop :=
  p.Writable {} ∧ (Source.patterns {} p.render).outcome.toOption = some ps ∧ ps ≠ [p]

instance (p : Pattern) (ps : List Pattern) : Decidable (p.Misread ps) := inferInstanceAs (Decidable (_ ∧ _))

/-- A dash at the end of the comment is lost to the border, a close in a name ends the comment, and a line
of a description or of code that begins a field is read as that field. -/
theorem patterns_render_misread :
    Misread { name := ['a', '-'] } [{ name := ['a'] }] ∧
    Misread { name := ['a', '*', '/', 'b'] } [{ name := ['a'] }] ∧
    Misread { name := ['a'], description := ['b', '\n', '@', 't', 'o', 'd', 'o', ' ', 'c'] }
      [{ name := ['a'], description := ['b'], metadata := .ofList [(['t', 'o', 'd', 'o'], .many [['c']])] }] ∧
    Misread
      { name := ['a'], examples := [{ blocks := [{ code := ['@', 'm', 'e', 't', 'a', ' ', 'k', ' ', 'v'] }] }] }
      [{ name := ['a'], examples := [{ blocks := [{ code := [] }] }]
         metadata := .ofList [(['k'], .single ['v'])] }] := by
  decide +kernel

end Pattern

end PatternBook
