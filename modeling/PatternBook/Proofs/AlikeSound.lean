import Mathlib.Data.List.Forall2
import PatternBook.Proofs.PassageSound

/-!
# Lines that are read alike

Two lines are alike if no reader tells them apart. A block is read line by line, so two blocks whose lines
are alike in pairs are read as the same patterns, with the same notices. A line and the same line behind a
star are alike, unless the line has a star of its own in front, which is then taken for decoration.
-/

namespace PatternBook

namespace Field

structure Alike (l l' : Text) : Prop where
  field : ofLine? l = ofLine? l'
  value : ∀ f : Field, single f.tag l = single f.tag l'
  text : Text.stripEnd (dropMarker l) = Text.stripEnd (dropMarker l')

namespace Alike

theorem stripped {l l' : Text} (h : Alike l l') : Text.strip (dropMarker l) = Text.strip (dropMarker l') := by
  have ht : Text.trim Text.isBlank (Text.trimEnd Text.isBlank (dropMarker l)) =
      Text.trim Text.isBlank (Text.trimEnd Text.isBlank (dropMarker l')) := congrArg _ h.text
  rwa [Text.trim_trimEnd, Text.trim_trimEnd] at ht

theorem isInside {l l' : Text} (h : Alike l l') : isInside l = isInside l' := by
  unfold Field.isInside isFieldLine
  rw [h.field]

theorem map {α : Type} {g : Text → α} (hg : ∀ {l l'}, Alike l l' → g l = g l') {ls ls' : List Text}
    (h : List.Forall₂ Alike ls ls') : ls.map g = ls'.map g := by
  induction h with
  | nil => rfl
  | cons hl _ ih => rw [List.map_cons, List.map_cons, hg hl, ih]

theorem takeWhile {ls ls' : List Text} (h : List.Forall₂ Alike ls ls') :
    List.Forall₂ Alike (ls.takeWhile Field.isInside) (ls'.takeWhile Field.isInside) := by
  induction h with
  | nil => exact .nil
  | @cons l l' ls ls' hl _ ih =>
    have hi := hl.isInside
    by_cases hb : Field.isInside l = true
    · rw [List.takeWhile_cons_of_pos hb, List.takeWhile_cons_of_pos (hi ▸ hb)]
      exact .cons hl ih
    · rw [List.takeWhile_cons_of_neg hb, List.takeWhile_cons_of_neg (hi ▸ hb)]
      exact .nil

section
variable {ls ls' : List Text} (h : List.Forall₂ Alike ls ls')
include h

theorem folded (tag : Option Text) : Field.folded tag ls = Field.folded tag ls' := by
  unfold Field.folded
  rw [map Alike.stripped h]

theorem verbatim (tag : Option Text) : Field.verbatim tag ls = Field.verbatim tag ls' := by
  unfold Field.verbatim
  rw [map Alike.text h]

end

/-- **One field** says the same on lines that are alike. -/
theorem entry (f : Field) {head head' : Text} (hh : Alike head head') {body body' : List Text}
    (hb : List.Forall₂ Alike body body') : f.entry head body = f.entry head' body' := by
  have hs := hh.value f
  cases f with
  | name | parameter | metadata => simp only [Field.entry, hs]
  | description | todo => simp only [Field.entry, folded (.cons hh hb)]
  | usage =>
    have he : body.isEmpty = body'.isEmpty := by cases hb <;> rfl
    simp only [Field.entry, hs, he, verbatim hb]

end Alike

end Field

/-! ## Blocks of lines that are alike -/

namespace Chunk

/-- What a chunk says tells of which field it is, so the scan sees of a chunk only what it says. -/
theorem scan_congr (s : Settings) {ks ks' : List Chunk} (h : ks.map content = ks'.map content)
    (current : Option Pattern) : scan s current ks = scan s current ks' := by
  induction ks generalizing ks' current with
  | nil =>
    obtain rfl := List.map_eq_nil_iff.mp h.symm
    rfl
  | cons k ks ih =>
    obtain ⟨k', ks', rfl, hk, hks⟩ := List.map_eq_cons_iff.mp h.symm
    have hf : k.field = k'.field := by
      unfold content at hk
      cases hf : k.field <;> cases hf' : k'.field <;> simp [hf, hf', Field.entry] at hk ⊢
    have hstore : ∀ p, k.store s p = k'.store s p := by
      intro p
      rw [store_eq, store_eq]
      exact congrArg (Entry.store s p) hk.symm
    have htail := fun current => ih hks.symm current
    simp only [scan, hf, hstore, htail]

theorem content_cut {ls ls' : List Text} (h : List.Forall₂ Field.Alike ls ls') :
    (cut ls).map content = (cut ls').map content := by
  induction h with
  | nil => rfl
  | @cons l l' ls ls' hl hls ih =>
    cases hf : Field.ofLine? l with
    | none =>
      have hi := isInside_of_none hf
      rw [cut_cons_inside hi, cut_cons_inside (hl.isInside ▸ hi), ih]
    | some f =>
      obtain ⟨k, hk, hkf, hh, hb⟩ := cut_cons_field ls hf
      obtain ⟨k', hk', hkf', hh', hb'⟩ := cut_cons_field ls' (hl.field ▸ hf)
      have hcontent : k.content = k'.content := by
        rw [content, content, hkf, hkf', hh, hh', hb, hb']
        exact hl.entry f (Field.Alike.takeWhile hls)
      rw [hk, hk', List.map_cons, List.map_cons, hcontent, ih]

end Chunk

theorem Block.patterns_alike (s : Settings) {b b' : Text}
    (h : List.Forall₂ Field.Alike (Text.lines b) (Text.lines b')) : patterns s b = patterns s b' := by
  rw [patterns, patterns, Chunk.scan_eq, Chunk.scan_eq, Cursor.ahead_ofText, Cursor.ahead_ofText]
  exact Chunk.scan_congr s (Chunk.content_cut h) none

/-! ## Decorated lines -/

namespace Field

def Undecorated (line : Text) : Prop := (line.dropWhile Text.isIndent).head? ≠ some '*'

instance (line : Text) : Decidable (Undecorated line) := inferInstanceAs (Decidable (_ ≠ _))

theorem dropMarker_of_undecorated {line : Text} (h : Undecorated line) : dropMarker line = line := by
  unfold Undecorated at h
  unfold dropMarker
  cases hd : line.dropWhile Text.isIndent with
  | nil => rfl
  | cons c rest =>
    have hc : c ≠ '*' := by
      rintro rfl
      rw [hd] at h
      exact h rfl
    split <;> simp_all

theorem single_decorate (f : Field) (line : Text) : single f.tag (decorate line) = single f.tag line := by
  have ha : Tag.after? f.tag (decorate line) = Tag.after? f.tag line :=
    after?_tag_decoration f (d := [' ', '*', ' ']) (by decide) line
  have hm : (decorate line).dropWhile isMargin = line.dropWhile isMargin := rfl
  rw [single, single, ha, hm]

theorem alike_decorate {line : Text} (h : Undecorated line) : Alike (decorate line) line where
  field := ofLine?_decorate line
  value := fun f => single_decorate f line
  text := by rw [dropMarker_decorate, dropMarker_of_undecorated h]

end Field

/-- **Decoration is transparent.** A block is read as it is with a star in front of every line. -/
theorem Block.patterns_decorate (s : Settings) (ls : List Text) (hn : ∀ l ∈ ls, '\n' ∉ l)
    (hs : ∀ l ∈ ls, Field.Undecorated l) :
    patterns s (Text.unlines (ls.map decorate)) = patterns s (Text.unlines ls) := by
  by_cases hne : ls = []
  · rw [hne]; rfl
  · have hn' : ∀ l ∈ ls.map decorate, '\n' ∉ l := by
      intro l hl
      obtain ⟨line, hm, rfl⟩ := List.mem_map.mp hl
      simpa [decorate] using hn line hm
    apply patterns_alike
    rw [Text.lines_unlines (by simpa using hne) hn', Text.lines_unlines hne hn, List.forall₂_map_left_iff,
      List.forall₂_same]
    exact fun l hl => Field.alike_decorate (hs l hl)

def Block.usageLines : List Text :=
  [['@', 'p', 'a', 't', 't', 'e', 'r', 'n', ' ', 'a'], ['@', 'e', 'x', 'a', 'm', 'p', 'l', 'e', ' ', 'b'],
    [' ', ' ', 'f', ':'], [], ['\t'], [' ', ' ', ' ', '-', '*', 'g']]

theorem Block.patterns_decorate_usage :
    (∀ l ∈ usageLines, '\n' ∉ l) ∧ (∀ l ∈ usageLines, Field.Undecorated l) ∧
      patterns {} (Text.unlines (usageLines.map decorate)) = patterns {} (Text.unlines usageLines) ∧
      (patterns {} (Text.unlines (usageLines.map decorate))).outcome.toOption =
        some [{ name := ['a']
                examples := [⟨['b'], [{ code := ['f', ':', '\n', '\n', '\n', ' ', '-', '*', 'g'] }]⟩] }] := by
  have hn : ∀ l ∈ usageLines, '\n' ∉ l := by decide
  have hs : ∀ l ∈ usageLines, Field.Undecorated l := by decide
  have hp := patterns_decorate {} usageLines hn hs
  refine ⟨hn, hs, hp, ?_⟩
  rw [hp]
  decide +kernel

end PatternBook
