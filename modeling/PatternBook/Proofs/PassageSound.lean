import PatternBook.Proofs.ChunkSound
import PatternBook.Proofs.DeclarationSound
import PatternBook.Proofs.FenceSound
import PatternBook.Proofs.FieldLemmas
import PatternBook.Proofs.Render

/-!
# A written passage is read back

A passage is a chunk of a comment's body. Storing the chunk puts on a pattern what the passage was
written from.
-/

namespace PatternBook

/-! ## One line -/

theorem strip_of_oneLine {s : Text} (h : OneLine s) : Text.strip s = s := Text.strip_of_trimmed h.2

theorem head?_padded (value : Text) : ∀ c ∈ (padded value).head?, c = ' ' := by
  intro c hc
  unfold padded at hc
  split at hc
  · simp at hc
  · simpa using hc.symm

theorem strip_padded {value : Text} (h : Text.Trimmed Text.isBlank value) :
    Text.strip (padded value) = value := by
  unfold padded
  split
  · rename_i he
    rw [List.isEmpty_iff.mp he]; rfl
  · rw [Text.strip_cons (by decide), Text.strip_of_trimmed h]

theorem getLast?_append_padded {s value : Text} :
    (s ++ padded value).getLast? = value.getLast?.or s.getLast? := by
  cases value with
  | nil => simp [padded]
  | cons c value => simp [padded, List.getLast?_cons]

theorem trimmed_append_padded {s value : Text} (hne : s ≠ []) (hs : Text.Trimmed Text.isBlank s)
    (hv : Text.Trimmed Text.isBlank value) : Text.Trimmed Text.isBlank (s ++ padded value) := by
  refine ⟨?_, fun c hc => ?_⟩
  · obtain ⟨c, t, rfl⟩ := List.exists_cons_of_ne_nil hne
    exact hs.1
  · rw [getLast?_append_padded] at hc
    cases hl : value.getLast? with
    | none =>
      rw [hl] at hc
      exact hs.2 c hc
    | some d =>
      rw [hl] at hc
      exact hv.2 c (by rw [hl]; exact hc)

/-! ## Parameters -/

namespace Parameter

def Layout.plain (q : Parameter) : Layout where
  front := .spaces 0
  beforeType := .spaces 0
  afterType := .spaces 0
  beforeSpec := .spaces 1
  beforeName := .spaces 0
  afterName := .spaces 0
  beforeDefault := .spaces 0
  afterDefault := .spaces 0
  afterSpec := .spaces (if q.description.isEmpty then 0 else 1)
  dash := !q.description.isEmpty
  beforeDescription := .spaces (if q.description.isEmpty then 0 else 1)

theorem Layout.plain_fits (q : Parameter) : (plain q).Fits q := by
  refine ⟨fun hd => ?_, fun _ hgap => ?_⟩
  · have he : q.description = [] := by simpa [plain] using hd
    simp [he]
  · have he : q.description = [] := by simpa [plain, Blanks.spaces] using hgap
    simp [plain, he]

theorem remark_plain (q : Parameter) : ((Layout.plain q).parts q).remark = padded q.remark := by
  by_cases hd : q.description = []
  · simp [Layout.parts, Layout.plain, Blanks.spaces, remark, padded, hd]
  · simp [Layout.parts, Layout.plain, Blanks.spaces, remark, padded, hd]

variable {q : Parameter} (h : q.Writable)
include h

theorem spec_ne : q.spec ≠ [] := by
  unfold spec
  split
  · simp
  · exact h.name_ne

theorem spec_trimmed : Text.Trimmed Text.isBlank q.spec := by
  unfold spec
  split
  · rw [← List.singleton_append, ← List.append_assoc]
    apply Text.trimmed_append <;> simp +decide
  · exact h.name_line.2

theorem declarable : q.Declarable where
  type := h.type_balanced
  named := ⟨h.name_ne, h.name_marks, h.default_bracket⟩
  name := h.name_line.2
  default := fun d hd => (h.default_line d hd).2
  description := h.description_line.2
  bare := h.bare

theorem spec_plain : (Layout.plain q).spec q = q.spec := by
  cases ho : q.optional with
  | true => simp [Layout.spec, Layout.parts, Layout.plain, Blanks.spaces, specOf, spec, ho]
  | false => simp [Layout.spec, Layout.parts, specOf, spec, equals, ho, (h.bare ho).1]

theorem declaration_eq : q.declaration = (Layout.plain q).write q := by
  rw [Layout.write, spec_plain h, remark_plain]
  simp [declaration, Layout.parts, Layout.plain, Blanks.spaces]

theorem read?_declaration : read? q.declaration = some q := by
  have hq := declarable h
  have hl := Layout.plain_fits q
  have hr := read?_iff.mpr ⟨_, (Layout.plain q).declares_write hq hl, (Layout.plain q).gives_parts hq hl⟩
  rw [declaration_eq h, hr, strip_of_oneLine h.type_line]

theorem declaration_trimmed : Text.Trimmed Text.isBlank q.declaration := by
  have hr : Text.Trimmed Text.isBlank q.remark := by
    unfold remark
    split
    · exact ⟨by simp, by simp⟩
    · rename_i he
      have hne : q.description ≠ [] := by simpa using he
      exact Text.trimmed_append (a := ['-']) (s := [' ']) (by simp +decide) (by simp)
        h.description_line.2.2 hne
  have hs := trimmed_append_padded (spec_ne h) (spec_trimmed h) hr
  have hd : q.declaration = ['{'] ++ (q.type ++ ['}', ' ']) ++ (q.spec ++ padded q.remark) := by
    simp [declaration]
  rw [hd]
  exact Text.trimmed_append (by simp +decide) (by simp) hs.2 (by simp [spec_ne h])

end Parameter

/-! ## Code blocks -/

namespace Fence

theorem opening?_marks {name : Text} (h : ∀ c ∈ name, isSyntaxChar c = true) :
    opening? (marks ++ name) = some name := by
  have ha : afterMarks? (marks ++ name) = some name := Text.after?_append marks name
  rw [opening?, ha, Option.map_some, List.takeWhile_eq_self_iff.mpr h]

theorem blocksFrom_fenced {b : CodeBlock} (h : b.Writable) (rest : List Text) :
    blocksFrom none (b.fenced ++ rest) = b :: blocksFrom none rest := by
  have hn : ∀ c ∈ b.syntaxName.getD [], isSyntaxChar c = true := by
    intro c hc
    cases hs : b.syntaxName with
    | none => simp [hs] at hc
    | some name =>
      rw [hs] at hc
      have := (h.syntax_name name hs).2 c hc
      simp [isSyntaxChar, this.1, this.2]
  have hb : block (b.syntaxName.getD []) (Text.lines b.code) = b := by
    obtain ⟨name, code⟩ := b
    rw [block, Text.unlines_lines, h.code_indent]
    cases name with
    | none => rfl
    | some name => simp [(h.syntax_name name rfl).1]
  have hin : ∀ line ∈ Text.lines b.code, closes line = false := fun line hl => (h.code_lines line hl).2
  have hclose : closes marks = true := by decide
  rw [CodeBlock.fenced, List.cons_append, blocksFrom, opening?_marks hn, List.append_assoc, List.singleton_append,
    Option.map_some, blocksFrom_inside _ hin, blocksFrom_closing _ hclose, List.nil_append, hb]

theorem blocksFrom_flatMap : ∀ {bs : List CodeBlock}, (∀ b ∈ bs, b.Writable) →
    blocksFrom none (bs.flatMap CodeBlock.fenced) = bs
  | [], _ => rfl
  | b :: bs, h => by
    rw [List.flatMap_cons, blocksFrom_fenced (h b (List.mem_cons_self ..)),
      blocksFrom_flatMap fun b' hb => h b' (List.mem_cons_of_mem b hb)]

end Fence

/-! ## Lines of a comment -/

theorem dropMarker_decorate (line : Text) : Field.dropMarker (decorate line) = line := rfl

theorem ofLine?_decorate (line : Text) : Field.ofLine? (decorate line) = Field.ofLine? line :=
  Field.ofLine?_decoration (d := [' ', '*', ' ']) (by decide) line

namespace Passage

theorem isWord_padded (value : Text) : ∀ c ∈ (padded value).head?, Text.isWord c = false := by
  intro c hc
  rw [head?_padded value c hc]; decide

theorem ofLine?_head (x : Passage) : Field.ofLine? x.head = some x.field :=
  Field.ofLine?_tag_append x.field (isWord_padded x.value)

theorem single_head (x : Passage) (h : Text.Trimmed Text.isBlank x.value) :
    Field.single x.field.tag (decorate x.head) = x.value := by
  have := Field.single_tag_append x.field (isWord_padded x.value) (d := [' ', '*', ' ']) (by decide)
  exact this.trans (strip_padded h)

end Passage

/-! ## Descriptions -/

theorem strip_separated {ds : List Text} (h : ∀ d ∈ ds, OneLine d) :
    (Pattern.separated ds).map Text.strip = Pattern.separated ds := by
  conv => rhs; rw [← List.map_id (Pattern.separated ds)]
  apply List.map_congr_left
  intro line hl
  obtain ⟨d, hd, hl⟩ := List.mem_flatMap.mp hl
  simp only [List.mem_cons, List.not_mem_nil, or_false] at hl
  rcases hl with rfl | rfl
  · rfl
  · exact strip_of_oneLine (h line hd)

section
variable (f : Field) {d : Text} {ds : List Text} (h : ∀ e ∈ d :: ds, e ≠ [] ∧ OneLine e)
include h

theorem unlines_paragraphs_separated :
    Text.unlines (Field.paragraphs ((decorate (f.tag ++ padded d) :: (Pattern.separated ds).map decorate).map
      fun line => Text.strip (Field.dropMarker line))) = f.tag ++ ' ' :: Text.unlines (d :: ds) := by
  have hd := h d (List.mem_cons_self ..)
  have hds : ∀ e ∈ ds, e ≠ [] ∧ OneLine e := fun e he => h e (List.mem_cons_of_mem d he)
  have hhead : Text.strip (f.tag ++ padded d) = f.tag ++ padded d :=
    Text.strip_of_trimmed (trimmed_append_padded f.tag_ne f.tag_trimmed hd.2.2)
  have hparts : (decorate (f.tag ++ padded d) :: (Pattern.separated ds).map decorate).map
      (fun line => Text.strip (Field.dropMarker line)) = (f.tag ++ padded d) :: Pattern.separated ds := by
    rw [List.map_cons, List.map_map, dropMarker_decorate, hhead]
    exact congrArg _ (strip_separated fun e he => (hds e he).2)
  have hpad : padded d = ' ' :: d := by simp [padded, hd.1]
  rw [hparts, Pattern.separated, Field.paragraphs_separated (by simp [f.tag_ne]) fun e he => (hds e he).1,
    Text.unlines_cons_append, hpad]
  exact congrArg _ (Text.unlines_cons_append [' '] d ds)

/-- Paragraphs under a tag fold to their lines. -/
theorem folded_separated :
    Field.folded (some f.tag) (decorate (f.tag ++ padded d) :: (Pattern.separated ds).map decorate) =
      Text.unlines (d :: ds) := by
  obtain ⟨hne, _, htrim⟩ := h d (List.mem_cons_self ..)
  have hindent : ∀ c ∈ d.head?, Text.isIndent c = false := fun c hc => Text.isIndent_eq_false (htrim.1 c hc)
  have htag : Tag.strip (some f.tag) (f.tag ++ ' ' :: Text.unlines (d :: ds)) = Text.unlines (d :: ds) := by
    apply Field.strip_tag_append
    rw [Text.head?_unlines hne]; exact hindent
  have hind : Indent.strip (Text.unlines (d :: ds)) = Text.unlines (d :: ds) :=
    Indent.strip_unlines_of_first (fun line hl => (h line hl).2.1)
      (Text.isBlankText_eq_false hne htrim.1) hindent
  have hends : Text.Trimmed Text.isBlank (Text.unlines (d :: ds)) := by
    apply Text.trimmed_unlines
    · rintro l ⟨⟩
      exact ⟨hne, htrim.1⟩
    · intro l hl
      obtain ⟨hne', _, htrim'⟩ := h l (List.mem_of_getLast? hl)
      exact ⟨hne', htrim'.2⟩
  simp only [Field.folded, unlines_paragraphs_separated f h, htag, hind]
  exact Text.trim_of_trimmed hends

end

/-! ## Examples -/

namespace CodeBlock

theorem isBlank_syntaxName {b : CodeBlock} (h : b.Writable) :
    ∀ c ∈ b.syntaxName.getD [], Text.isBlank c = false := by
  intro c hc
  cases hs : b.syntaxName with
  | none => simp [hs] at hc
  | some name =>
    rw [hs] at hc
    exact ((h.syntax_name name hs).2 c hc).1

theorem newline_not_mem_fenced {b : CodeBlock} (h : b.Writable) : ∀ line ∈ b.fenced, '\n' ∉ line := by
  intro line hl hn
  simp only [fenced, List.mem_cons, List.mem_append, List.not_mem_nil, or_false] at hl
  rcases hl with rfl | hl | rfl
  · rcases List.mem_append.mp hn with hn | hn
    · exact absurd hn (by decide)
    · exact absurd (isBlank_syntaxName h _ hn) (by decide)
  · exact Text.not_mem_of_mem_lines hl hn
  · exact absurd hn (by decide)

theorem stripEnd_fenced {b : CodeBlock} (h : b.Writable) : ∀ line ∈ b.fenced, Text.stripEnd line = line := by
  have hmarks : ∀ c ∈ Fence.marks, Text.isBlank c = false := by decide
  intro line hl
  simp only [fenced, List.mem_cons, List.mem_append, List.not_mem_nil, or_false] at hl
  rcases hl with rfl | hl | rfl
  · apply Text.trimEnd_of_last
    intro c hc
    rcases List.mem_append.mp (List.mem_of_getLast? hc) with hc | hc
    · exact hmarks c hc
    · exact isBlank_syntaxName h c hc
  · exact (h.code_lines line hl).1
  · decide

theorem head?_fenced {bs : List CodeBlock} (hne : bs ≠ []) :
    ∃ name rest, bs.flatMap fenced = (Fence.marks ++ name) :: rest := by
  obtain ⟨b, bs, rfl⟩ := List.exists_cons_of_ne_nil hne
  exact ⟨_, _, rfl⟩

theorem getLast?_fenced {bs : List CodeBlock} (hne : bs ≠ []) :
    (bs.flatMap fenced).getLast? = some Fence.marks := by
  obtain ⟨init, hi⟩ := List.getLast?_eq_some_iff.mp (List.getLast?_eq_some_getLast hne)
  rw [hi]
  simp [fenced, List.getLast?_cons]

section
variable {bs : List CodeBlock} (h : ∀ b ∈ bs, b.Writable)
include h

theorem newline_not_mem_blocks : ∀ line ∈ bs.flatMap fenced, '\n' ∉ line := by
  intro line hl
  obtain ⟨b, hb, hl⟩ := List.mem_flatMap.mp hl
  exact newline_not_mem_fenced (h b hb) line hl

theorem verbatim_fenced (hne : bs ≠ []) :
    Field.verbatim none ((bs.flatMap fenced).map decorate) = Text.unlines (bs.flatMap fenced) := by
  have hlines : ((bs.flatMap fenced).map decorate).map (fun line => Text.stripEnd (Field.dropMarker line)) =
      bs.flatMap fenced := by
    conv => rhs; rw [← List.map_id (bs.flatMap fenced)]
    rw [List.map_map]
    apply List.map_congr_left
    intro line hl
    obtain ⟨b, hb, hl⟩ := List.mem_flatMap.mp hl
    exact stripEnd_fenced (h b hb) line hl
  obtain ⟨name, rest, hfirst⟩ := head?_fenced hne
  have hind : Indent.strip (Text.unlines (bs.flatMap fenced)) = Text.unlines (bs.flatMap fenced) := by
    have hn := newline_not_mem_blocks h
    rw [hfirst] at hn ⊢
    exact Indent.strip_unlines_of_first hn (by simp +decide [Fence.marks, Text.isBlankText])
      (by simp +decide [Fence.marks])
  have hends : Text.Trimmed (· == '\n') (Text.unlines (bs.flatMap fenced)) := by
    apply Text.trimmed_unlines
    · rw [hfirst]
      simp [Fence.marks]
    · rw [getLast?_fenced hne]
      simp [Fence.marks]
  simp only [Field.verbatim, hlines, Tag.strip, hind]
  exact Text.trim_of_trimmed hends

theorem codeBlocks_fenced (hne : bs ≠ []) : Field.codeBlocks (Text.unlines (bs.flatMap fenced)) = bs := by
  have hb : Fence.blocks (Text.unlines (bs.flatMap fenced)) = bs := by
    rw [Fence.blocks_unlines (newline_not_mem_blocks h), Fence.blocksFrom_flatMap h]
  simp [Field.codeBlocks, hb, hne]

end

end CodeBlock

/-! ## Passages as chunks -/

namespace Passage

def chunk (x : Passage) : Chunk where
  field := x.field
  head := decorate x.head
  body := (x.body.map decorate).takeWhile Field.isInside
  begins := (ofLine?_decorate x.head).trans x.ofLine?_head
  inside := fun _ hm => List.mem_takeWhile_imp hm

theorem body_chunk {x : Passage} (h : ∀ line ∈ x.body, Field.isFieldLine line = false) :
    x.chunk.body = x.body.map decorate := by
  apply List.takeWhile_eq_self_iff.mpr
  intro line hl
  obtain ⟨l, hm, rfl⟩ := List.mem_map.mp hl
  have := h l hm
  unfold Field.isFieldLine at this
  rw [Field.isInside, Field.isFieldLine, ofLine?_decorate, this]; rfl

theorem lines_chunk {x : Passage} (h : ∀ line ∈ x.body, Field.isFieldLine line = false) :
    x.chunk.lines = x.lines.map decorate := by
  rw [Chunk.lines, body_chunk h]; rfl

theorem store_chunk {x : Passage} (h : ∀ line ∈ x.body, Field.isFieldLine line = false) (s : Settings)
    (p : Pattern) :
    x.chunk.store s p = (x.field.entry (decorate x.head) (x.body.map decorate)).store s p := by
  rw [Chunk.store_eq, body_chunk h]; rfl

def stored (s : Settings) (xs : List Passage) (p : Pattern) : Run ParseError Pattern :=
  (xs.map chunk).foldlM (fun p k => k.store s p) p

theorem stored_append (s : Settings) (xs ys : List Passage) (p : Pattern) :
    stored s (xs ++ ys) p = stored s xs p >>= stored s ys := by
  rw [stored, List.map_append, List.foldlM_append]; rfl

theorem stored_map {α : Type} {s : Settings} {f : α → Passage} {g : Pattern → α → Pattern} : ∀ {xs : List α},
    (∀ x ∈ xs, ∀ p, (f x).chunk.store s p = .done (g p x)) → ∀ p, stored s (xs.map f) p = .done (xs.foldl g p)
  | [], _, p => rfl
  | x :: xs, h, p => by
    have ih := stored_map (fun y hy => h y (List.mem_cons_of_mem x hy)) (g p x)
    rw [stored, List.map_cons, List.map_cons, List.foldlM_cons, h x (List.mem_cons_self ..)]
    exact (Run.done_andThen _ _).trans ih

end Passage

/-! ## Storing a passage -/

section
variable (s : Settings) (p : Pattern)

theorem store_description {d : Text} {ds : List Text} (h : ∀ e ∈ d :: ds, e ≠ [] ∧ OneLine e)
    (hin : ∀ line ∈ Pattern.separated ds, Field.isFieldLine line = false) :
    (Passage.mk .description d (Pattern.separated ds)).chunk.store s p =
      .done { p with description := Text.unlines (d :: ds) } := by
  rw [Passage.store_chunk hin]
  exact congrArg (Entry.store s p) (congrArg Entry.description (folded_separated .description h))

theorem store_parameter {q : Parameter} (h : q.Writable) :
    q.passage.chunk.store s p = .done (p.addParameter q) := by
  have he := congrArg Entry.parameter (q.passage.single_head (Parameter.declaration_trimmed h))
  have hread : Parameter.read (some p.name) q.declaration = .ok q := by
    rw [Parameter.read, Parameter.read?_declaration h]
  rw [Passage.store_chunk (by simp [Parameter.passage])]
  refine (congrArg (Entry.store s p) he).trans ?_
  simp only [Entry.store, Parameter.passage, hread]

theorem store_example {e : Example} (h : e.Writable)
    (hin : ∀ line ∈ e.passage.body, Field.isFieldLine line = false) :
    e.passage.chunk.store s p = .done (p.addExample e) := by
  have hsingle := e.passage.single_head h.description_line.2
  have hblocks : (if (e.passage.body.map decorate).isEmpty then []
      else Field.codeBlocks (Field.verbatim none (e.passage.body.map decorate))) = e.blocks := by
    by_cases hne : e.blocks = []
    · simp [Example.passage, hne]
    · obtain ⟨name, rest, hfirst⟩ := CodeBlock.head?_fenced hne
      have hbody : (e.passage.body.map decorate).isEmpty = false := by simp [Example.passage, hfirst]
      rw [hbody, if_neg Bool.false_ne_true, Example.passage, CodeBlock.verbatim_fenced h.blocks hne,
        CodeBlock.codeBlocks_fenced h.blocks hne]
  rw [Passage.store_chunk hin]
  exact congrArg (Entry.store s p) (congrArg₂ Entry.usage hsingle hblocks)

theorem keyValue?_passage {key value : Text} (hne : key ≠ []) (hk : ∀ c ∈ key, Text.isBlank c = false)
    (hv : OneLine value) : Field.keyValue? (Metadata.passage key value).value = some (key, value) := by
  have hblank : ∀ c ∈ [' '], Text.isBlank c = true := by decide
  have hdash : Text.strip (Field.dropLoneDash ('-' :: padded value)) = value := by
    by_cases he : value = []
    · rw [he]
      rfl
    · have hpad : padded value = [' '] ++ value := by simp [padded, he]
      rw [hpad, Field.dropLoneDash_append (by simp) hblank, Text.dropWhile_of_head hv.2.1, strip_of_oneLine hv]
  have h := Field.keyValue?_append hne hk (by simp) hblank ('-' :: padded value)
  rwa [List.dropWhile_cons_of_neg (by decide), hdash] at h

theorem store_metadata {key value : Text} (hne : key ≠ []) (hk : ∀ c ∈ key, Text.isBlank c = false)
    (hv : OneLine value) : (Metadata.passage key value).chunk.store s p =
      .done (if s.accumulating.contains key then p.appendMeta key value else p.setMeta key value) := by
  have ht : Text.Trimmed Text.isBlank (Metadata.passage key value).value := by
    have hkey : Text.Trimmed Text.isBlank (key ++ [' '] ++ ['-']) :=
      Text.trimmed_append (fun c hc => hk c (List.mem_of_head? hc)) hne (by simp +decide) (by simp)
    have := trimmed_append_padded (by simp) hkey hv.2
    simpa [Metadata.passage] using this
  have hsingle := congrArg Field.keyValue? ((Metadata.passage key value).single_head ht)
  have he := congrArg Entry.metadata (hsingle.trans (keyValue?_passage hne hk hv))
  rw [Passage.store_chunk (by simp [Metadata.passage])]
  exact congrArg (Entry.store s p) he

end

end PatternBook
