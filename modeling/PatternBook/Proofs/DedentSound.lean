import PatternBook.Proofs.FenceSound
import PatternBook.Proofs.NormalSound

/-!
# Indentation around fences

The lines of an example lose the indentation that all of them share before fences are looked for, and the lines of
each block lose what is left of theirs. To take off one and then the other is to take off the indentation of the
block at once, so the first step changes no block. Marks are found behind any indentation.
-/

namespace PatternBook

namespace Indent

/-- A line of its own, empty or with `p` in front of what is not blank. -/
def Led (p line : Text) : Prop :=
  '\n' ∉ line ∧ (line = [] ∨ Text.isBlankText line = false ∧ p <+: ofLine line)

theorem eq_nil_of_blank {line : Text} (h : Text.stripEnd line = line) (hb : Text.isBlankText line = true) :
    line = [] := by
  rw [← h]
  exact Text.trimEnd_eq_nil_of_trim (Text.strip_eq_nil_iff.mpr hb)

theorem led_shared {s : Text} (h : Text.Tidy s) : ∀ line ∈ Text.lines s, Led (shared (Text.lines s)) line := by
  intro line hl
  refine ⟨Text.not_mem_of_mem_lines hl, ?_⟩
  cases hb : Text.isBlankText line with
  | true => exact .inl (eq_nil_of_blank (h line hl) hb)
  | false => exact .inr ⟨rfl, shared_prefix_of_mem (mem_indents hl hb)⟩

theorem dropShared_nil (p : Text) : dropShared p [] = [] := by
  cases p <;> rfl

theorem dropWhile_dropShared {p line : Text} (h : Led p line) :
    (dropShared p line).dropWhile Text.isIndent = line.dropWhile Text.isIndent := by
  rcases h.2 with rfl | ⟨-, hp⟩
  · rw [dropShared_nil]
  · have hi : ∀ c ∈ p, Text.isIndent c = true := fun c hc => List.mem_takeWhile_imp (hp.subset hc)
    conv => rhs; rw [(eq_append_dropShared hp).1, List.dropWhile_append_of_pos hi]

theorem strip_eq (s : Text) : strip s = Text.unlines ((Text.lines s).map (dropShared (shared (Text.lines s)))) := by
  rw [← lines_strip, Text.unlines_lines]

section
variable {p : Text} {body : List Text} (h : ∀ line ∈ body, Led p line)
include h

/-- Line by line, what a block loses of its indentation does not depend on what it has lost before. -/
theorem dropShared_dropShared {line : Text} (hl : line ∈ body) :
    dropShared (shared (body.map (dropShared p))) (dropShared p line) = dropShared (shared body) line := by
  have hp : ∀ line ∈ body, Text.isBlankText line = false → p <+: ofLine line := by
    intro line hl hb
    rcases (h line hl).2 with rfl | ⟨-, hp⟩
    · cases hb
    · exact hp
  rcases (h line hl).2 with rfl | ⟨hb, hprefix⟩
  · rw [dropShared_nil, dropShared_nil, dropShared_nil]
  · obtain ⟨hline, -, hblank⟩ := eq_append_dropShared hprefix
    have hne : indents body ≠ [] := List.ne_nil_of_mem (mem_indents hl hb)
    have hmem : dropShared p line ∈ body.map (dropShared p) := List.mem_map_of_mem hl
    have hrest := (eq_append_dropShared (shared_prefix_of_mem (mem_indents hmem (hblank.trans hb)))).1
    conv => rhs; rw [shared_eq_append hp hne, hline, hrest, ← List.append_assoc, dropShared_append]

theorem strip_map_dropShared : strip (Text.unlines (body.map (dropShared p))) = strip (Text.unlines body) := by
  by_cases hne : body = []
  · rw [hne]
    rfl
  · have hn : ∀ line ∈ body.map (dropShared p), '\n' ∉ line := by
      intro line hl hm
      obtain ⟨l, hl', rfl⟩ := List.mem_map.mp hl
      exact (h l hl').1 ((dropShared_suffix p l).subset hm)
    rw [strip_eq, strip_eq, Text.lines_unlines (by simpa using hne) hn,
      Text.lines_unlines hne fun l hl => (h l hl).1, List.map_map]
    exact congrArg Text.unlines (List.map_congr_left fun line hl => dropShared_dropShared h hl)

end

/-! ## Line breaks at the ends -/

theorem first_ne_nil {s l : Text} (hne : s ≠ []) (h : ∀ c ∈ s.head?, (c == '\n') = false)
    (hl : l ∈ (Text.lines s).head?) : l ≠ [] := by
  rintro rfl
  obtain ⟨ls, hls⟩ := List.head?_eq_some_iff.mp hl
  have hs := Text.unlines_lines s
  rw [hls] at hs
  cases ls with
  | nil => exact hne hs.symm
  | cons l' ls =>
    rw [Text.unlines_cons_cons] at hs
    simp [← hs] at h

theorem last_ne_nil {s l : Text} (hne : s ≠ []) (h : ∀ c ∈ s.getLast?, (c == '\n') = false)
    (hl : l ∈ (Text.lines s).getLast?) : l ≠ [] := by
  rintro rfl
  obtain ⟨ls, hls⟩ := List.getLast?_eq_some_iff.mp hl
  have hs := Text.unlines_lines s
  rw [hls] at hs
  by_cases hn : ls = []
  · rw [hn] at hs
    exact hne hs.symm
  · rw [Text.unlines_concat [] hn] at hs
    simp [← hs] at h

theorem dropShared_ne_nil {p line : Text} (h : Led p line) (hne : line ≠ []) :
    dropShared p line ≠ [] ∧ '\n' ∉ dropShared p line := by
  obtain ⟨hn, he | ⟨hb, hp⟩⟩ := h
  · exact absurd he hne
  · refine ⟨fun he => ?_, fun hm => hn ((dropShared_suffix p line).subset hm)⟩
    have hblank := (eq_append_dropShared hp).2.2
    rw [he, hb] at hblank
    cases hblank

theorem trimmed_strip {s : Text} (h : Text.Tidy s) (ht : Text.Trimmed (· == '\n') s) :
    Text.Trimmed (· == '\n') (strip s) := by
  by_cases hne : s = []
  · rw [hne]
    decide
  · have hkeep : ∀ line ∈ Text.lines s, line ≠ [] → dropShared (shared (Text.lines s)) line ≠ [] ∧
        ∀ c ∈ dropShared (shared (Text.lines s)) line, (c == '\n') = false := by
      intro line hl hn
      obtain ⟨hd, hbreak⟩ := dropShared_ne_nil (led_shared h line hl) hn
      refine ⟨hd, fun c hc => ?_⟩
      rw [beq_eq_false_iff_ne]
      rintro rfl
      exact hbreak hc
    rw [strip_eq]
    apply Text.trimmed_unlines
    · intro l hl
      rw [List.head?_map] at hl
      obtain ⟨line, hline, rfl⟩ := Option.map_eq_some_iff.mp hl
      obtain ⟨hd, hbreak⟩ := hkeep line (List.mem_of_head? hline) (first_ne_nil hne ht.1 hline)
      exact ⟨hd, fun c hc => hbreak c (List.mem_of_head? hc)⟩
    · intro l hl
      rw [List.getLast?_map] at hl
      obtain ⟨line, hline, rfl⟩ := Option.map_eq_some_iff.mp hl
      obtain ⟨hd, hbreak⟩ := hkeep line (List.mem_of_getLast? hline) (last_ne_nil hne ht.2 hline)
      exact ⟨hd, fun c hc => hbreak c (List.mem_of_getLast? hc)⟩

theorem trim_strip {s : Text} (h : Text.Tidy s) :
    Text.trim (· == '\n') (strip s) = strip (Text.trim (· == '\n') s) := by
  obtain ⟨m, n, hl⟩ := Text.lines_trim_newline s
  have hs : strip s = Text.unlines (List.replicate m [] ++ Text.lines (strip (Text.trim (· == '\n') s)) ++
      List.replicate n []) := by
    rw [strip_eq, ← shared_trim_newline, hl, List.map_append, List.map_append, List.map_replicate,
      List.map_replicate, dropShared_nil, ← lines_strip]
  rw [hs, Text.trim_unlines_newline m n (Text.lines_ne_nil _), Text.unlines_lines]
  exact Text.trim_of_trimmed (trimmed_strip h.trim (Text.trimmed_trim _ s))

end Indent

namespace Fence

open Indent (Led dropShared)

theorem afterMarks?_dropShared {p line : Text} (h : Led p line) :
    afterMarks? (dropShared p line) = afterMarks? line := by
  rw [afterMarks?, afterMarks?, Indent.dropWhile_dropShared h]

theorem block_map_dropShared {p : Text} {body : List Text} (h : ∀ line ∈ body, Led p line) (name : Text) :
    block name (body.map (dropShared p)) = block name body := by
  rw [block, block, Indent.strip_map_dropShared h]

theorem blocksFrom_map_dropShared {p : Text} {ls : List Text} (h : ∀ line ∈ ls, Led p line) :
    blocksFrom none (ls.map (dropShared p)) = blocksFrom none ls ∧
      ∀ (name : Text) (body : List Text), (∀ line ∈ body, Led p line) →
        blocksFrom (some (name, body.map (dropShared p))) (ls.map (dropShared p)) =
          blocksFrom (some (name, body)) ls := by
  induction ls with
  | nil => exact ⟨rfl, fun name body hb => congrArg (fun b => [b]) (block_map_dropShared hb name)⟩
  | cons line ls ih =>
    rw [List.forall_mem_cons] at h
    obtain ⟨hprose, hinside⟩ := ih h.2
    have hmarks := afterMarks?_dropShared h.1
    rw [List.map_cons]
    constructor
    · have ho : opening? (dropShared p line) = opening? line := by rw [opening?, opening?, hmarks]
      rw [blocksFrom, blocksFrom, ho]
      cases opening? line with
      | none => exact hprose
      | some name => exact hinside name [] (by simp)
    · intro name body hb
      have hc : closes (dropShared p line) = closes line := by rw [closes, closes, hmarks]
      have hnext := hinside name (body ++ [line]) (List.forall_mem_append.mpr ⟨hb, by simpa using h.1⟩)
      rw [List.map_append] at hnext
      rw [blocksFrom, blocksFrom]
      simp only [hc, block_map_dropShared hb, hprose]
      rw [← hnext]
      rfl

theorem blocks_strip {s : Text} (h : Text.Tidy s) : blocks (Indent.strip s) = blocks s := by
  rw [blocks, Indent.lines_strip]
  exact (blocksFrom_map_dropShared (Indent.led_shared h)).1

end Fence

/-- **Indentation around fences does not matter.** Lines that do not end in blanks hold the same blocks with and
without the indentation that they share. So the body of an example holds the blocks of its lines, as they are behind
their markers. -/
theorem Fence.blocks_strip_indent :
    (∀ s : Text, (∀ line ∈ Text.lines s, Text.stripEnd line = line) → blocks (Indent.strip s) = blocks s) ∧
      ∀ ls : List Text, (∀ line ∈ ls, '\n' ∉ line) → blocks (Field.verbatim none ls) =
        blocks (Text.trim (· == '\n')
          (Text.unlines (ls.map fun line => Text.stripEnd (Field.dropMarker line)))) := by
  refine ⟨fun s h => blocks_strip h, fun ls hn => ?_⟩
  have ht := Field.tidy_parts hn
  simp only [Field.verbatim, Tag.strip]
  rw [Indent.trim_strip ht, blocks_strip ht.trim]

def Fence.indented : Text := "\ta\n\t```py\n\t  b\n\n\t   c\n\t```".toList

theorem Fence.blocks_strip_indented :
    (∀ line ∈ Text.lines indented, Text.stripEnd line = line) ∧ Indent.strip indented ≠ indented ∧
      blocks (Indent.strip indented) = blocks indented ∧
      blocks indented = [⟨some "py".toList, "b\n\n c".toList⟩] := by
  have h : ∀ line ∈ Text.lines indented, Text.stripEnd line = line := by decide
  exact ⟨h, by decide, blocks_strip_indent.1 indented h, by decide⟩

end PatternBook
