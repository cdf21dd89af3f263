import Mathlib.Tactic.MkIffOfInductiveProp
import PatternBook.Proofs.CommentSound
import PatternBook.Proofs.ParameterLemmas
import PatternBook.Source

/-!
# Writing a pattern as a comment

A pattern is written as one comment: its name, its description with an empty line between paragraphs,
and then one passage for each parameter, example and metadata value. `Writable` says which patterns the
notation has words for. `Fits` says which of them a comment can hold: nothing in them closes the
comment, begins a field where none is meant, or is taken for the border at the end.
-/

namespace PatternBook

def padded (value : Text) : Text := if value.isEmpty then [] else ' ' :: value

structure Passage where
  field : Field
  value : Text
  body : List Text

namespace Passage

def head (x : Passage) : Text := x.field.tag ++ padded x.value

def lines (x : Passage) : List Text := x.head :: x.body

end Passage

/-! ## The passages of a pattern -/

namespace Parameter

def spec (q : Parameter) : Text :=
  if q.optional then '[' :: (q.name ++ equals q.default ++ [']']) else q.name

def remark (q : Parameter) : Text :=
  if q.description.isEmpty then [] else '-' :: ' ' :: q.description

def declaration (q : Parameter) : Text :=
  '{' :: (q.type ++ '}' :: ' ' :: (q.spec ++ padded q.remark))

def passage (q : Parameter) : Passage := ⟨.parameter, q.declaration, []⟩

end Parameter

def CodeBlock.fenced (b : CodeBlock) : List Text :=
  (Fence.marks ++ b.syntaxName.getD []) :: (Text.lines b.code ++ [Fence.marks])

def Example.passage (e : Example) : Passage := ⟨.usage, e.description, e.blocks.flatMap CodeBlock.fenced⟩

def MetaValue.texts : MetaValue → List Text
  | single value => [value]
  | many values => values

namespace Metadata

def passage (key value : Text) : Passage := ⟨.metadata, key ++ ' ' :: '-' :: padded value, []⟩

def passages (e : Text × MetaValue) : List Passage := e.2.texts.map (passage e.1)

end Metadata

namespace Pattern

def separated (ds : List Text) : List Text := ds.flatMap fun d => [[], d]

def descriptionPassages (p : Pattern) : List Passage :=
  if p.description.isEmpty then []
  else [⟨.description, (Text.lines p.description).headD [], separated (Text.lines p.description).tail⟩]

def passages (p : Pattern) : List Passage :=
  p.descriptionPassages ++ p.parameters.map Parameter.passage ++ p.examples.map Example.passage ++
    p.metadata.entries.flatMap Metadata.passages

def page (p : Pattern) : List Text := (⟨.name, p.name, []⟩ :: p.passages).flatMap Passage.lines

end Pattern

def decorate (line : Text) : Text := ' ' :: '*' :: ' ' :: line

def Pattern.render (p : Pattern) : Text :=
  ['/', '*', '*', '\n'] ++ Text.unlines (p.page.map decorate) ++ ['\n', ' ', '*', '/']

/-! ## Patterns that can be written -/

def OneLine (s : Text) : Prop := '\n' ∉ s ∧ Text.Trimmed Text.isBlank s

instance (s : Text) : Decidable (OneLine s) := inferInstanceAs (Decidable (_ ∧ _))

@[mk_iff]
structure Parameter.Writable (q : Parameter) : Prop where
  name_line : OneLine q.name
  type_line : OneLine q.type
  description_line : OneLine q.description
  default_line : ∀ d ∈ q.default, OneLine d
  type_balanced : Balanced q.type
  name_ne : q.name ≠ []
  name_marks : ∀ c ∈ q.name, c ≠ '=' ∧ c ≠ '[' ∧ c ≠ ']'
  default_bracket : ∀ d ∈ q.default, ']' ∉ d
  bare : q.optional = false → q.default = none ∧ ∀ c ∈ q.name, Text.isBlank c = false

@[mk_iff]
structure CodeBlock.Writable (b : CodeBlock) : Prop where
  syntax_name : ∀ n ∈ b.syntaxName, n ≠ [] ∧ ∀ c ∈ n, Text.isBlank c = false ∧ c ≠ '\x60'
  code_indent : Indent.strip b.code = b.code
  code_lines : ∀ line ∈ Text.lines b.code, Text.stripEnd line = line ∧ Fence.closes line = false

@[mk_iff]
structure Example.Writable (e : Example) : Prop where
  description_line : OneLine e.description
  blocks : ∀ b ∈ e.blocks, b.Writable

instance (q : Parameter) : Decidable q.Writable := decidable_of_iff' _ q.writable_iff

instance (b : CodeBlock) : Decidable b.Writable := decidable_of_iff' _ b.writable_iff

instance (e : Example) : Decidable e.Writable := decidable_of_iff' _ e.writable_iff

def MetaValue.Writable (s : Settings) (key : Text) : MetaValue → Prop
  | single value => key ∉ s.accumulating ∧ OneLine value
  | many values => key ∈ s.accumulating ∧ values ≠ [] ∧ ∀ v ∈ values, OneLine v

instance (s : Settings) (key : Text) : (value : MetaValue) → Decidable (value.Writable s key)
  | .single _ => inferInstanceAs (Decidable (_ ∧ _))
  | .many _ => inferInstanceAs (Decidable (_ ∧ _))

namespace Pattern

@[mk_iff]
structure Writable (s : Settings) (p : Pattern) : Prop where
  name : OneLine p.name
  description : p.description = [] ∨ ∀ d ∈ Text.lines p.description, d ≠ [] ∧ OneLine d
  parameters : ∀ q ∈ p.parameters, q.Writable
  examples : ∀ e ∈ p.examples, e.Writable
  keys : ∀ e ∈ p.metadata.entries, e.1 ≠ [] ∧ ∀ c ∈ e.1, Text.isBlank c = false
  values : ∀ e ∈ p.metadata.entries, e.2.Writable s e.1

/-- The comment is not closed early, no line under a field line begins another field, and the last line
does not end in a border character. -/
@[mk_iff]
structure Fits (p : Pattern) : Prop where
  not_closed : ∀ line ∈ p.page, ¬ Comment.closing <:+: line
  inside : ∀ x ∈ p.passages, ∀ line ∈ x.body, Field.isFieldLine line = false
  last_kept : ∀ line ∈ p.page.getLast?, ∃ c ∈ line.getLast?, Comment.isBorder c = false

instance (s : Settings) (p : Pattern) : Decidable (p.Writable s) := decidable_of_iff' _ (writable_iff s p)

instance (p : Pattern) : Decidable p.Fits := decidable_of_iff' _ p.fits_iff

end Pattern

end PatternBook
