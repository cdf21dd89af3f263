import PatternBook.Proofs.NormalSound

/-!
# Keys and values

A key ends at the first blank. A dash behind it separates it from the value only if it stands alone; any other dash
belongs to the value. So a pair can be written with a dash whatever its value is, and without one unless the value
would lose a dash of its own.
-/

namespace PatternBook.Field

/-! ## Spellings -/

abbrev Gap := { w : Text // w ≠ [] ∧ ∀ c ∈ w, Text.isBlank c = true }

def Undashed (s : Text) : Prop := s ≠ ['-'] ∧ ∀ b rest, s = '-' :: b :: rest → Text.isBlank b = false

inductive Spells (key value : Text) : Text → Prop
  | dashed (gap gap' : Gap) : Spells key value (key ++ (gap.1 ++ '-' :: (gap'.1 ++ value)))
  | plain (gap : Gap) : value ≠ [] → Undashed value → Spells key value (key ++ (gap.1 ++ value))

theorem dropLoneDash_of_undashed {s : Text} (h : Undashed s) : dropLoneDash s = s := by
  unfold dropLoneDash
  split
  · exact absurd rfl h.1
  · simp [h.2 _ _ rfl]
  · rfl

theorem strip_key_append {key : Text} (hk : Text.Unspaced key) {s t : Text} (hne : t ≠ [])
    (ht : ∀ c ∈ t.getLast?, Text.isBlank c = false) : Text.strip (key ++ (s ++ t)) = key ++ (s ++ t) := by
  apply Text.strip_of_trimmed
  rw [← List.append_assoc]
  exact Text.trimmed_append (fun c hc => hk.2 c (List.mem_of_head? hc)) hk.1 ht hne

theorem strip_dash_blanks {key : Text} (hk : Text.Unspaced key) (gap gap' : Gap) :
    Text.strip (key ++ (gap.1 ++ '-' :: gap'.1)) = key ++ (gap.1 ++ ['-']) := by
  have hend : key ++ (gap.1 ++ '-' :: gap'.1) = key ++ (gap.1 ++ ['-']) ++ gap'.1 := by simp
  rw [hend]
  exact (Text.trim_append_end gap'.2.2).trans (strip_key_append hk (by simp) (by simp +decide))

section
variable {key value : Text} (hk : Text.Unspaced key) (hv : Text.Trimmed Text.isBlank value)
include hk hv

theorem keyValue?_dashed (gap gap' : Gap) :
    keyValue? (Text.strip (key ++ (gap.1 ++ '-' :: (gap'.1 ++ value)))) = some (key, value) := by
  have hread := keyValue?_append hk.1 hk.2 gap.2.1 gap.2.2
  by_cases he : value = []
  · -- the blanks behind the dash are trimmed off, so the dash is the end of the text
    rw [he, List.append_nil, strip_dash_blanks hk, hread]
    rfl
  · have hs := strip_key_append hk (s := gap.1 ++ '-' :: gap'.1) he hv.2
    simp only [List.append_assoc, List.cons_append] at hs
    rw [hs, hread, List.dropWhile_cons_of_neg (by decide), dropLoneDash_append gap'.2.1 gap'.2.2,
      Text.dropWhile_of_head hv.1, Text.strip_of_trimmed hv]

theorem keyValue?_plain (gap : Gap) (hne : value ≠ []) (hu : Undashed value) :
    keyValue? (Text.strip (key ++ (gap.1 ++ value))) = some (key, value) := by
  rw [strip_key_append hk hne hv.2, keyValue?_append hk.1 hk.2 gap.2.1 gap.2.2, Text.dropWhile_of_head hv.1,
    dropLoneDash_of_undashed hu, Text.strip_of_trimmed hv]

theorem keyValue?_of_spells {text : Text} (h : Spells key value text) :
    keyValue? (Text.strip text) = some (key, value) := by
  cases h with
  | dashed gap gap' => exact keyValue?_dashed hk hv gap gap'
  | plain gap hne hu => exact keyValue?_plain hk hv gap hne hu

end

/-! ## Texts with a blank -/

theorem dash_cases (s : Text) : Undashed s ∨ s = ['-'] ∨
    ∃ (gap : Gap) (value : Text), s = '-' :: (gap.1 ++ value) ∧ ∀ c ∈ value.head?, Text.isBlank c = false := by
  by_cases hs : s = ['-']
  · exact .inr (.inl hs)
  by_cases hb : ∃ b rest, s = '-' :: b :: rest ∧ Text.isBlank b = true
  · obtain ⟨b, rest, rfl, hb⟩ := hb
    obtain ⟨run, value, rfl, hrun, hvalue⟩ := Text.exists_run Text.isBlank rest
    exact .inr (.inr ⟨⟨b :: run, List.cons_ne_nil b run, List.forall_mem_cons.mpr ⟨hb, hrun⟩⟩, value, rfl, hvalue⟩)
  · refine .inl ⟨hs, fun b rest he => ?_⟩
    by_contra hne
    exact hb ⟨b, rest, he, by simpa using hne⟩

theorem exists_spells {key rest : Text} (hk : Text.Unspaced key) (gap : Gap) (hne : rest ≠ [])
    (ht : Text.Trimmed Text.isBlank rest) :
    ∃ text, Spells key (Text.strip (dropLoneDash rest)) text ∧ Text.strip text = key ++ (gap.1 ++ rest) := by
  have hs : Text.strip (key ++ (gap.1 ++ rest)) = key ++ (gap.1 ++ rest) := strip_key_append hk hne ht.2
  rcases dash_cases rest with hu | rfl | ⟨gap', value, rfl, hvalue⟩
  · have hv : Text.strip (dropLoneDash rest) = rest := by
      rw [dropLoneDash_of_undashed hu, Text.strip_of_trimmed ht]
    rw [hv]
    exact ⟨_, .plain gap hne hu, hs⟩
  · -- any blanks may stand behind the dash at the end
    refine ⟨_, .dashed gap gap, ?_⟩
    show Text.strip (key ++ (gap.1 ++ '-' :: (gap.1 ++ []))) = _
    rw [List.append_nil, strip_dash_blanks hk]
  · have hv : Text.strip (dropLoneDash ('-' :: (gap'.1 ++ value))) = value := by
      rw [dropLoneDash_append gap'.2.1 gap'.2.2, Text.dropWhile_of_head hvalue]
      exact Text.strip_of_trimmed ⟨hvalue, Text.last_of_suffix (List.suffix_append ('-' :: gap'.1) value) ht.2⟩
    rw [hv]
    exact ⟨_, .dashed gap gap', hs⟩

section
variable {v : Text} (hv : Text.Trimmed Text.isBlank v)
include hv

theorem exists_gap (h : ¬ ∀ c ∈ v, Text.isBlank c = false) : ∃ (key : Text) (gap : Gap) (rest : Text),
    v = key ++ (gap.1 ++ rest) ∧ Text.Unspaced key ∧ rest ≠ [] ∧ Text.Trimmed Text.isBlank rest := by
  obtain ⟨key, tail, rfl, hkey, htail⟩ := Text.exists_run (fun c => !Text.isBlank c) v
  obtain ⟨gap, rest, rfl, hgap, hrest⟩ := Text.exists_run Text.isBlank tail
  simp only [Bool.not_eq_true', Bool.not_eq_false'] at hkey htail
  have hgne : gap ≠ [] := by
    rintro rfl
    cases rest with
    | nil => exact h (by simpa using hkey)
    | cons c rest => simpa [htail c rfl] using hrest c rfl
  have hkne : key ≠ [] := by
    rintro rfl
    obtain ⟨b, gap, rfl⟩ := List.exists_cons_of_ne_nil hgne
    simpa [hgap b (List.mem_cons_self ..)] using hv.1 b rfl
  have hrne : rest ≠ [] := by
    rintro rfl
    have hlast := List.getLast?_eq_some_getLast hgne
    have hb := hv.2 (gap.getLast hgne) (by simp [List.getLast?_append, hlast])
    simp [hgap _ (List.getLast_mem hgne)] at hb
  refine ⟨key, ⟨gap, hgne, hgap⟩, rest, rfl, ⟨hkne, hkey⟩, hrne, hrest, ?_⟩
  rw [← List.append_assoc] at hv
  exact Text.last_of_suffix (List.suffix_append _ rest) hv.2

theorem keyValue?_eq_none_iff : keyValue? v = none ↔ ∀ c ∈ v, Text.isBlank c = false := by
  constructor
  · intro hnone
    by_contra h
    obtain ⟨key, gap, rest, rfl, hk, -⟩ := exists_gap hv h
    rw [keyValue?_append hk.1 hk.2 gap.2.1 gap.2.2] at hnone
    cases hnone
  · intro h
    have hd : v.dropWhile (fun c => !Text.isBlank c) = [] := by simpa using h
    simp [keyValue?, hd]

theorem keyValue?_eq_some_iff {key value : Text} : keyValue? v = some (key, value) ↔
    Text.Unspaced key ∧ Text.Trimmed Text.isBlank value ∧ ∃ text, Spells key value text ∧ Text.strip text = v := by
  constructor
  · intro hread
    have hblank : ¬ ∀ c ∈ v, Text.isBlank c = false := by
      rw [← keyValue?_eq_none_iff hv, hread]
      simp
    obtain ⟨key', gap, rest, rfl, hk, hne, ht⟩ := exists_gap hv hblank
    rw [keyValue?_append hk.1 hk.2 gap.2.1 gap.2.2, Text.dropWhile_of_head ht.1] at hread
    cases hread
    exact ⟨hk, Text.trimmed_trim _ _, exists_spells hk gap hne ht⟩
  · rintro ⟨hk, ht, text, hs, rfl⟩
    exact keyValue?_of_spells hk ht hs

end

/-! ## The reader -/

/-- **A pair is read from its spellings and from nothing else.** Its reader passes the line of the tag only. There
is no pair if no blank stands in the text behind the tag, and otherwise the one that the text spells. -/
theorem readPair_spells {f : Field} {c : Cursor} {line : Text} {ls : List Text} (ha : c.ahead = line :: ls)
    (hb : f.begins line = true) :
    (∃ deco, (∀ ch ∈ deco, Tag.isDecoration ch = true) ∧ line = deco ++ (f.tag ++ f.behind line)) ∧
    ∃ pair d, readPair f.tag c = .ok (pair, d) ∧ d.ahead = ls ∧ d.passed = c.passed ++ [line] ∧
      (pair = none ↔ ∀ ch ∈ Text.strip (f.behind line), Text.isBlank ch = false) ∧
      ∀ key value, pair = some (key, value) ↔ Text.Unspaced key ∧ Text.Trimmed Text.isBlank value ∧
        ∃ text, Spells key value text ∧ Text.strip text = Text.strip (f.behind line) := by
  have hf := ofLine?_of_begins hb
  refine ⟨⟨_, fun _ hc => List.mem_takeWhile_imp hc, eq_tag_behind hf⟩, ?_⟩
  obtain ⟨d, hread, hahead, hpassed⟩ := readSingle_eq f.tag ha
  have ht : Text.Trimmed Text.isBlank (Text.strip (f.behind line)) := Text.trimmed_trim _ _
  rw [single_eq_behind hf] at hread
  exact ⟨keyValue? (Text.strip (f.behind line)), d, by simp [readPair, hread], hahead, hpassed,
    keyValue?_eq_none_iff ht, fun _ _ => keyValue?_eq_some_iff ht⟩

/-- The first dash separates, the second belongs to the value. -/
def signed : Text := " * @meta\toffset \u00a0-  -1 ".toList

theorem readPair_spells_signed : ∃ d, readPair metadata.tag (Cursor.ofLines [signed, "@todo".toList]) =
    .ok (some ("offset".toList, "-1".toList), d) ∧ d.ahead = ["@todo".toList] := by
  obtain ⟨-, pair, d, hread, hahead, -, -, hpair⟩ :=
    readPair_spells (f := metadata) (Cursor.ahead_ofLines [signed, "@todo".toList]) (by decide)
  have hp : pair = some ("offset".toList, "-1".toList) := by
    apply (hpair _ _).mpr
    exact ⟨⟨by simp, by decide⟩, by decide, _, .dashed ⟨[' ', '\u00a0'], by simp, by decide⟩
      ⟨[' ', ' '], by simp, by decide⟩, by decide⟩
  rw [hp] at hread
  exact ⟨d, hread, hahead⟩

end PatternBook.Field
