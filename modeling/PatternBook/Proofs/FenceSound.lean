import PatternBook.Fence
import PatternBook.Proofs.TextLemmas

/-!
# The layout of fenced code

Lines are laid out as prose and spans of code in one way only. A line that closes a span would open one if it
stood in prose, and a line that opens one may stand in the body of another, so where a span ends is known only
from where it begins: at the first line behind that closes it, or with the last line of all. No piece of a layout
is the beginning of another one, and reading the lines gives a block for each span.
-/

namespace PatternBook.Fence

/-! ## Lines of a fence -/

/-- A line that opens a span: marks behind indentation, a name that is as long as it can be, and anything. -/
structure Opening where
  indent : Text
  name : Text
  rest : Text
  indent_only : ∀ c ∈ indent, Text.isIndent c = true
  name_only : ∀ c ∈ name, isSyntaxChar c = true
  name_ends : ∀ c ∈ rest.head?, isSyntaxChar c = false

/-- A line that closes a span: marks, with nothing but indentation in front of them and behind them. -/
structure Closing where
  indent : Text
  trail : Text
  indent_only : ∀ c ∈ indent, Text.isIndent c = true
  trail_only : ∀ c ∈ trail, Text.isIndent c = true

def Opening.line (o : Opening) : Text := o.indent ++ (marks ++ (o.name ++ o.rest))

def Closing.line (c : Closing) : Text := c.indent ++ (marks ++ c.trail)

def Opens (line : Text) : Prop := ∃ o : Opening, o.line = line

def Closes (line : Text) : Prop := ∃ c : Closing, c.line = line

theorem head?_marks (rest : Text) : ∀ c ∈ (marks ++ rest).head?, Text.isIndent c = false := by
  simp +decide [marks]

theorem afterMarks?_append {indent : Text} (h : ∀ c ∈ indent, Text.isIndent c = true) (rest : Text) :
    afterMarks? (indent ++ (marks ++ rest)) = some rest := by
  rw [afterMarks?, Text.dropWhile_run h (head?_marks rest), Text.after?_append]

theorem eq_of_afterMarks? {line rest : Text} (h : afterMarks? line = some rest) :
    line = line.takeWhile Text.isIndent ++ (marks ++ rest) := by
  rw [← Text.after?_eq_some_iff.mp h, List.takeWhile_append_dropWhile]

theorem opening?_line (o : Opening) : opening? o.line = some o.name := by
  rw [opening?, Opening.line, afterMarks?_append o.indent_only, Option.map_some,
    Text.takeWhile_run o.name_only o.name_ends]

theorem opens_iff {line : Text} : Opens line ↔ (opening? line).isSome = true := by
  constructor
  · rintro ⟨o, rfl⟩
    rw [opening?_line]
    rfl
  · intro h
    obtain ⟨name, ho⟩ := Option.isSome_iff_exists.mp h
    obtain ⟨rest, hr, -⟩ := Option.map_eq_some_iff.mp ho
    refine ⟨⟨line.takeWhile Text.isIndent, rest.takeWhile isSyntaxChar, rest.dropWhile isSyntaxChar,
      fun c hc => List.mem_takeWhile_imp hc, fun c hc => List.mem_takeWhile_imp hc, Text.head_dropWhile _ rest⟩, ?_⟩
    rw [Opening.line, List.takeWhile_append_dropWhile]
    exact (eq_of_afterMarks? hr).symm

theorem closes_iff {line : Text} : Closes line ↔ closes line = true := by
  constructor
  · rintro ⟨c, rfl⟩
    rw [closes, Closing.line, afterMarks?_append c.indent_only]
    exact List.all_eq_true.mpr c.trail_only
  · intro h
    unfold closes at h
    cases hr : afterMarks? line with
    | none => simp [hr] at h
    | some trail =>
      rw [hr] at h
      exact ⟨⟨line.takeWhile Text.isIndent, trail, fun c hc => List.mem_takeWhile_imp hc, List.all_eq_true.mp h⟩,
        (eq_of_afterMarks? hr).symm⟩

instance (line : Text) : Decidable (Opens line) := decidable_of_iff' _ opens_iff

instance (line : Text) : Decidable (Closes line) := decidable_of_iff' _ closes_iff

theorem opening?_of_not_opens {line : Text} (h : ¬ Opens line) : opening? line = none := by
  simpa [opens_iff] using h

theorem Closing.closes_line (c : Closing) : closes c.line = true := closes_iff.mp ⟨c, rfl⟩

theorem marks_inj {indent indent' rest rest' : Text} (hi : ∀ c ∈ indent, Text.isIndent c = true)
    (hi' : ∀ c ∈ indent', Text.isIndent c = true) (h : indent ++ (marks ++ rest) = indent' ++ (marks ++ rest')) :
    indent = indent' ∧ rest = rest' := by
  obtain ⟨rfl, hm⟩ := Text.run_inj hi (head?_marks rest) hi' (head?_marks rest') h
  exact ⟨rfl, List.append_cancel_left hm⟩

theorem Opening.line_inj {o o' : Opening} (h : o.line = o'.line) : o = o' := by
  obtain ⟨indent, name, rest, hi, hn, hr⟩ := o
  obtain ⟨indent', name', rest', hi', hn', hr'⟩ := o'
  obtain ⟨rfl, hrun⟩ := marks_inj hi hi' h
  obtain ⟨rfl, rfl⟩ := Text.run_inj hn hr hn' hr' hrun
  rfl

theorem Closing.line_inj {c c' : Closing} (h : c.line = c'.line) : c = c' := by
  obtain ⟨indent, trail, hi, ht⟩ := c
  obtain ⟨indent', trail', hi', ht'⟩ := c'
  obtain ⟨rfl, rfl⟩ := marks_inj hi hi' h
  rfl

/-! ## Layouts -/

structure Span where
  opening : Opening
  body : List Text
  inside : ∀ line ∈ body, ¬ Closes line

inductive Piece where
  | prose (line : Text) (plain : ¬ Opens line)
  | fenced (span : Span) (closing : Closing)

/-- Pieces one after the other. The last span of all need not be closed if nothing follows it. -/
structure Layout where
  pieces : List Piece
  unclosed : Option Span

namespace Span

def lines (s : Span) : List Text := s.opening.line :: s.body

def block (s : Span) : CodeBlock where
  syntaxName := if s.opening.name = [] then none else some s.opening.name
  code := Indent.strip (Text.unlines s.body)

theorem closes_body (s : Span) : ∀ line ∈ s.body, closes line = false := by
  intro line hl
  simpa [closes_iff] using s.inside line hl

theorem block_eq (s : Span) : Fence.block s.opening.name s.body = s.block := by
  unfold Fence.block block
  simp only [List.isEmpty_iff]

theorem lines_inj {s s' : Span} (h : s.lines = s'.lines) : s = s' := by
  obtain ⟨o, body, hin⟩ := s
  obtain ⟨o', body', hin'⟩ := s'
  obtain ⟨ho, rfl⟩ := List.cons.inj h
  obtain rfl := Opening.line_inj ho
  rfl

end Span

namespace Piece

def lines : Piece → List Text
  | prose line _ => [line]
  | fenced span closing => span.lines ++ [closing.line]

def span? : Piece → Option Span
  | prose _ _ => none
  | fenced span _ => some span

theorem fenced_lines_append (s : Span) (c : Closing) (rest : List Text) :
    (fenced s c).lines ++ rest = s.opening.line :: (s.body ++ c.line :: rest) := by
  simp [lines, Span.lines]

theorem prose_ne {line : Text} (h : ¬ Opens line) (s : Span) (ls ms : List Text) :
    line :: ls ≠ s.opening.line :: ms := by
  intro he
  exact h ⟨s.opening, (List.cons.inj he).1.symm⟩

/-- **No piece is the beginning of another.** -/
theorem append_inj {p p' : Piece} {rest rest' : List Text} (h : p.lines ++ rest = p'.lines ++ rest') :
    p = p' ∧ rest = rest' := by
  cases p with
  | prose line hl =>
    cases p' with
    | prose line' hl' =>
      obtain ⟨rfl, rfl⟩ := List.cons.inj h
      exact ⟨rfl, rfl⟩
    | fenced s' c' =>
      rw [fenced_lines_append] at h
      exact absurd h (prose_ne hl s' _ _)
  | fenced s c =>
    rw [fenced_lines_append] at h
    cases p' with
    | prose line' hl' => exact absurd h.symm (prose_ne hl' s _ _)
    | fenced s' c' =>
      rw [fenced_lines_append] at h
      obtain ⟨ho, hb⟩ := List.cons.inj h
      -- each body ends at the first line that closes a span
      have hend : ∀ (c : Closing) (ls : List Text), ∀ line ∈ (c.line :: ls).head?, (!closes line) = false := by
        intro c ls
        simp [c.closes_line]
      have hin : ∀ s : Span, ∀ line ∈ s.body, (!closes line) = true := by
        intro s line hl
        simp [s.closes_body line hl]
      obtain ⟨hbody, hrest⟩ := Text.run_inj (hin s) (hend c rest) (hin s') (hend c' rest') hb
      obtain ⟨hc, rfl⟩ := List.cons.inj hrest
      obtain rfl := Closing.line_inj hc
      obtain rfl : s = s' := Span.lines_inj (by rw [Span.lines, Span.lines, ho, hbody])
      exact ⟨rfl, rfl⟩

theorem append_ne_lines (p : Piece) (rest : List Text) (s : Span) : p.lines ++ rest ≠ s.lines := by
  intro h
  cases p with
  | prose line hl => exact prose_ne hl s _ _ h
  | fenced s' c =>
    rw [fenced_lines_append] at h
    have hb : s'.body ++ c.line :: rest = s.body := (List.cons.inj h).2
    exact s.inside c.line (by simp [← hb]) ⟨c, rfl⟩

end Piece

namespace Layout

def lines (l : Layout) : List Text := l.pieces.flatMap Piece.lines ++ l.unclosed.elim [] Span.lines

def spans (l : Layout) : List Span := l.pieces.filterMap Piece.span? ++ l.unclosed.toList

theorem lines_cons (p : Piece) (ps : List Piece) (u : Option Span) :
    (mk (p :: ps) u).lines = p.lines ++ (mk ps u).lines := by
  simp [lines]

theorem spans_cons (p : Piece) (ps : List Piece) (u : Option Span) :
    (mk (p :: ps) u).spans = p.span?.toList ++ (mk ps u).spans := by
  cases p <;> rfl

theorem append_ne_lines_nil (p : Piece) (rest : List Text) (u : Option Span) :
    p.lines ++ rest ≠ (mk [] u).lines := by
  cases u with
  | none => cases p <;> simp [lines, Piece.lines, Span.lines]
  | some s => exact p.append_ne_lines rest s

theorem lines_inj {l l' : Layout} (h : l.lines = l'.lines) : l = l' := by
  obtain ⟨ps, u⟩ := l
  obtain ⟨ps', u'⟩ := l'
  induction ps generalizing ps' with
  | nil =>
    cases ps' with
    | nil =>
      cases u with
      | none =>
        cases u' with
        | none => rfl
        | some s' => cases h
      | some s =>
        cases u' with
        | none => cases h
        | some s' => rw [Span.lines_inj h]
    | cons p' ps' =>
      rw [lines_cons] at h
      exact absurd h.symm (append_ne_lines_nil p' _ u)
  | cons p ps ih =>
    cases ps' with
    | nil =>
      rw [lines_cons] at h
      exact absurd h (append_ne_lines_nil p _ u')
    | cons p' ps' =>
      rw [lines_cons, lines_cons] at h
      obtain ⟨rfl, hrest⟩ := Piece.append_inj h
      cases ih ps' hrest
      rfl

theorem closing_cases : ∀ ls : List Text, (∀ line ∈ ls, ¬ Closes line) ∨
    ∃ (body : List Text) (c : Closing) (rest : List Text), (∀ line ∈ body, ¬ Closes line) ∧
      ls = body ++ c.line :: rest
  | [] => .inl (by simp)
  | line :: ls => by
    by_cases hc : Closes line
    · obtain ⟨c, rfl⟩ := hc
      exact .inr ⟨[], c, ls, by simp, rfl⟩
    · rcases closing_cases ls with h | ⟨body, c, rest, hb, rfl⟩
      · exact .inl (List.forall_mem_cons.mpr ⟨hc, h⟩)
      · exact .inr ⟨line :: body, c, rest, List.forall_mem_cons.mpr ⟨hc, hb⟩, rfl⟩

theorem exists_lines : ∀ ls : List Text, ∃ l : Layout, l.lines = ls
  | [] => ⟨⟨[], none⟩, rfl⟩
  | line :: ls => by
    by_cases ho : Opens line
    · obtain ⟨o, rfl⟩ := ho
      rcases closing_cases ls with hin | ⟨body, c, rest, hin, rfl⟩
      · exact ⟨⟨[], some ⟨o, ls, hin⟩⟩, rfl⟩
      · obtain ⟨⟨ps, u⟩, hrest⟩ := exists_lines rest
        exact ⟨⟨.fenced ⟨o, body, hin⟩ c :: ps, u⟩, by rw [lines_cons, Piece.fenced_lines_append, hrest]⟩
    · obtain ⟨⟨ps, u⟩, hrest⟩ := exists_lines ls
      exact ⟨⟨.prose line ho :: ps, u⟩, by rw [lines_cons, hrest]; rfl⟩
termination_by ls => ls.length

end Layout

/-! ## Reading a layout -/

section
variable (name : Text)

theorem blocksFrom_inside {ls : List Text} (hin : ∀ line ∈ ls, closes line = false) (body rest : List Text) :
    blocksFrom (some (name, body)) (ls ++ rest) = blocksFrom (some (name, body ++ ls)) rest := by
  induction ls generalizing body with
  | nil => simp
  | cons line ls ih =>
    rw [List.forall_mem_cons] at hin
    rw [List.cons_append, blocksFrom]
    simp [hin.1, ih hin.2]

theorem blocksFrom_closing {line : Text} (h : closes line = true) (body rest : List Text) :
    blocksFrom (some (name, body)) (line :: rest) = block name body :: blocksFrom none rest := by
  rw [blocksFrom]
  simp [h]

end

theorem blocksFrom_opening (o : Opening) (rest : List Text) :
    blocksFrom none (o.line :: rest) = blocksFrom (some (o.name, [])) rest := by
  rw [blocksFrom, opening?_line]
  rfl

theorem blocksFrom_span (s : Span) (rest : List Text) :
    blocksFrom none (s.lines ++ rest) = blocksFrom (some (s.opening.name, s.body)) rest := by
  rw [Span.lines, List.cons_append, blocksFrom_opening, blocksFrom_inside _ s.closes_body]
  rfl

/-- **One piece** gives the block of its span, if it has one. -/
theorem blocksFrom_piece (p : Piece) (rest : List Text) :
    blocksFrom none (p.lines ++ rest) = p.span?.toList.map Span.block ++ blocksFrom none rest := by
  cases p with
  | prose line hl =>
    rw [Piece.lines, List.singleton_append, blocksFrom, opening?_of_not_opens hl]
    rfl
  | fenced s c =>
    rw [Piece.lines, List.append_assoc, blocksFrom_span, List.singleton_append,
      blocksFrom_closing _ c.closes_line, Span.block_eq]
    rfl

theorem blocksFrom_lines (l : Layout) : blocksFrom none l.lines = l.spans.map Span.block := by
  obtain ⟨ps, u⟩ := l
  induction ps with
  | nil =>
    cases u with
    | none => rfl
    | some s =>
      have hs := blocksFrom_span s []
      rw [List.append_nil] at hs
      exact hs.trans (congrArg (fun b => [b]) s.block_eq)
  | cons p ps ih =>
    rw [Layout.lines_cons, blocksFrom_piece, ih, Layout.spans_cons, List.map_append]

theorem blocks_unlines {ls : List Text} (hn : ∀ line ∈ ls, '\n' ∉ line) :
    blocks (Text.unlines ls) = blocksFrom none ls := by
  by_cases hne : ls = []
  · rw [hne]
    rfl
  · rw [blocks, Text.lines_unlines hne hn]

/-- **Reading inverts the layout.** The lines of a text are laid out in one way, and lines that are laid out give
one block for each span, in order. -/
theorem blocks_layout :
    (∀ s : Text, ∃! l : Layout, l.lines = Text.lines s) ∧
      ∀ l : Layout, (∀ line ∈ l.lines, '\n' ∉ line) → blocks (Text.unlines l.lines) = l.spans.map Span.block := by
  refine ⟨fun s => ?_, fun l hn => ?_⟩
  · obtain ⟨l, hl⟩ := Layout.exists_lines (Text.lines s)
    exact ⟨l, hl, fun l' hl' => Layout.lines_inj (hl'.trans hl.symm)⟩
  · rw [blocks_unlines hn, blocksFrom_lines]

def nested : Layout where
  pieces :=
    [.fenced ⟨⟨" ".toList, "py".toList, " x".toList, by decide, by decide, by decide⟩,
        ["  ```js".toList, "   a".toList], by decide⟩ ⟨"\t".toList, " ".toList, by decide, by decide⟩,
      .prose "b".toList (by decide)]
  unclosed := some ⟨⟨[], [], "`".toList, by decide, by decide, by decide⟩, ["c".toList, []], by decide⟩

theorem blocks_layout_nested :
    blocks " ```py x\n  ```js\n   a\n\t``` \nb\n````\nc\n".toList =
      [⟨some "py".toList, "```js\n a".toList⟩, ⟨none, "c\n".toList⟩] := by
  have hlines : " ```py x\n  ```js\n   a\n\t``` \nb\n````\nc\n".toList =
      Text.unlines nested.lines := by
    decide
  rw [hlines, blocks_layout.2 nested (by decide)]
  decide

end PatternBook.Fence
