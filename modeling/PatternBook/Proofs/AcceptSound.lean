import Mathlib.Data.List.Nodup
import PatternBook.Settings.OfDatum

/-!
# Data that settings accept

Settings are made of a mapping exactly if each of its entries is accepted: the key is known and the value is
one for that key. If not, the fault is one of the settings, with two exceptions. The unknown keys are listed
in order before anything else is looked at, and that needs texts: a key of another kind makes the listing
fail. And a value that is refused is written in the message, and the items of a list are written as keys: a
number with too many digits makes the writing fail.
-/

namespace PatternBook

/-! ## Numbers that are not written -/

theorem Text.ofInt?_eq_none_iff {n : Int} : ofInt? n = none ↔ Nat.pow 10 digitLimit ≤ n.natAbs := by
  have hd := Nat.length_toDigits_le_iff (b := 10) (n := n.natAbs) (k := digitLimit) (by decide) (by decide)
  rw [← Nat.pow_eq] at hd
  rw [← Nat.not_lt, ← hd, ofInt?, ofNat]
  split <;> simp_all

namespace Datum

/-- A number in the value has more digits than are written. -/
inductive HoldsLong : Datum → Prop
  | number {n : Int} (hn : Nat.pow 10 Text.digitLimit ≤ n.natAbs) : HoldsLong (.scalar (.int n))
  | item {items : List Datum} {d : Datum} (hm : d ∈ items) (hd : HoldsLong d) : HoldsLong (.list items)
  | key {entries : List (Scalar × Datum)} {e : Scalar × Datum} (hm : e ∈ entries) (hk : HoldsLong (.scalar e.1)) :
      HoldsLong (.mapping entries)
  | value {entries : List (Scalar × Datum)} {e : Scalar × Datum} (hm : e ∈ entries) (hv : HoldsLong e.2) :
      HoldsLong (.mapping entries)

theorem holdsLong_list {items : List Datum} : HoldsLong (.list items) ↔ ∃ d ∈ items, d.HoldsLong := by
  constructor
  · intro h
    cases h with
    | item hm hd => exact ⟨_, hm, hd⟩
  · rintro ⟨d, hm, hd⟩
    exact .item hm hd

theorem holdsLong_mapping {entries : List (Scalar × Datum)} :
    HoldsLong (.mapping entries) ↔ ∃ e ∈ entries, HoldsLong (.scalar e.1) ∨ e.2.HoldsLong := by
  constructor
  · intro h
    cases h with
    | key hm hk => exact ⟨_, hm, .inl hk⟩
    | value hm hv => exact ⟨_, hm, .inr hv⟩
  · rintro ⟨e, hm, hk | hv⟩
    · exact .key hm hk
    · exact .value hm hv

theorem quoted?_scalar_eq_none_iff {value : Scalar} : value.quoted? = none ↔ HoldsLong (.scalar value) := by
  constructor
  · intro h
    cases value with
    | int n => exact .number (Text.ofInt?_eq_none_iff.mp h)
    | null | bool b | float x | text s => cases h
  · intro h
    cases h with
    | number hn => exact Text.ofInt?_eq_none_iff.mpr hn

mutual

theorem quoted?_eq_none_iff : ∀ {d : Datum}, d.quoted? = none ↔ d.HoldsLong
  | scalar value => by rw [quoted?, quoted?_scalar_eq_none_iff]
  | list items => by
    rw [holdsLong_list, ← quotedItems?_eq_none_iff, quoted?]
    cases quotedItems? items <;> simp
  | mapping entries => by
    rw [holdsLong_mapping, ← quotedEntries?_eq_none_iff, quoted?]
    cases quotedEntries? entries <;> simp

theorem quotedItems?_eq_none_iff : ∀ {items : List Datum}, quotedItems? items = none ↔ ∃ d ∈ items, d.HoldsLong
  | [] => by simp [quotedItems?]
  | item :: items => by
    rw [List.exists_mem_cons_iff, ← quoted?_eq_none_iff, ← quotedItems?_eq_none_iff, quotedItems?]
    cases item.quoted? <;> cases quotedItems? items <;> simp

theorem quotedEntries?_eq_none_iff : ∀ {entries : List (Scalar × Datum)}, quotedEntries? entries = none ↔
    ∃ e ∈ entries, HoldsLong (.scalar e.1) ∨ e.2.HoldsLong
  | [] => by simp [quotedEntries?]
  | (key, value) :: entries => by
    rw [List.exists_mem_cons_iff, ← quoted?_scalar_eq_none_iff, ← quoted?_eq_none_iff,
      ← quotedEntries?_eq_none_iff, quotedEntries?]
    cases key.quoted? <;> cases value.quoted? <;> cases quotedEntries? entries <;> simp

end

theorem plain?_eq_none_iff {d : Datum} : d.plain? = none ↔ d.HoldsLong := by
  rw [← quoted?_eq_none_iff]
  unfold plain?
  split
  · exact iff_of_false (by simp) (by simp [quoted?, Scalar.quoted?])
  · rfl

theorem mapM_plain?_eq_none_iff {items : List Datum} : items.mapM plain? = none ↔ HoldsLong (.list items) := by
  rw [holdsLong_list]
  induction items with
  | nil => simp
  | cons item items ih =>
    rw [List.exists_mem_cons_iff, ← plain?_eq_none_iff, ← ih, List.mapM_cons]
    cases item.plain? <;> cases items.mapM plain? <;> simp

theorem not_holdsLong_text (s : Text) : ¬ HoldsLong (.scalar (.text s)) := by
  intro h
  cases h

end Datum

namespace Settings

inductive IsTruth : Datum → Prop
  | bool (b : Bool) : IsTruth (.scalar (.bool b))
  | word {s : Text} : (Text.strip s).map Char.toLower ∈ yesWords ++ noWords → IsTruth (.scalar (.text s))

inductive IsKeys : Datum → Prop
  | text (s : Text) : IsKeys (.scalar (.text s))
  | list {items : List Datum} : ¬ Datum.HoldsLong (.list items) → IsKeys (.list items)

inductive IsEncoding (codecs : Codecs) : Datum → Prop
  | name {s : Text} {codec : Codec} : codecs.lookup s = some codec → IsEncoding codecs (.scalar (.text s))

def Accepts (codecs : Codecs) (key : Scalar) (value : Datum) : Prop :=
  key = .text strictKey ∧ IsTruth value ∨ key = .text accumulatingKey ∧ IsKeys value ∨
    key = .text encodingKey ∧ IsEncoding codecs value

def AcceptsAt (codecs : Codecs) (entries : List (Scalar × Datum)) (key : Text) : Prop :=
  ∀ value, (.text key, value) ∈ entries → Accepts codecs (.text key) value

/-- Of the keys in this order, the first whose value is not accepted has too long a number in it. -/
inductive RefusesLong (codecs : Codecs) (entries : List (Scalar × Datum)) : List Text → Prop
  | here {key : Text} {keys : List Text} {value : Datum} (hm : (.text key, value) ∈ entries)
      (hr : ¬ Accepts codecs (.text key) value) (hl : value.HoldsLong) : RefusesLong codecs entries (key :: keys)
  | later {key : Text} {keys : List Text} (ha : AcceptsAt codecs entries key)
      (hl : RefusesLong codecs entries keys) : RefusesLong codecs entries (key :: keys)

def KnowsKeys (entries : List (Scalar × Datum)) : Prop := ∀ e ∈ entries, ∃ name ∈ knownKeys, e.1 = .text name

/-! ## Checks -/

/-- There is a result if `P` holds. If not, the settings are at fault, unless `L` holds: then a number is not
written. -/
inductive Checks {α : Type} (r : Except SettingsError α) (P L : Prop) : Prop
  | pass (hp : P) {a : α} (h : r = .ok a)
  | fail (hp : ¬ P) (hl : ¬ L) {fault : SettingsError} (h : r = .error fault) (hf : fault.isInvalidSetting = true)
  | stop (hp : ¬ P) (hl : L) (h : r = .error .numberTooLong)

section
variable {α β : Type} {r : Except SettingsError α} {P Q L M : Prop}

theorem Checks.bind (hr : Checks r P L) {g : α → Except SettingsError β} (hg : ∀ a, Checks (g a) Q M) :
    Checks (r >>= g) (P ∧ Q) (¬ P ∧ L ∨ P ∧ M) := by
  cases hr with
  | @pass hp a h =>
    subst h
    cases hg a with
    | pass hq h => exact .pass ⟨hp, hq⟩ h
    | fail hq hm h hf => exact .fail (fun hpq => hq hpq.2) (by simp [hp, hm]) h hf
    | stop hq hm h => exact .stop (fun hpq => hq hpq.2) (.inr ⟨hp, hm⟩) h
  | fail hp hl h hf =>
    subst h
    exact .fail (fun hpq => hp hpq.1) (by simp [hp, hl]) rfl hf
  | stop hp hl h =>
    subst h
    exact .stop (fun hpq => hp hpq.1) (.inl ⟨hp, hl⟩) rfl

theorem Checks.congr (hr : Checks r P L) (hp : P ↔ Q) (hl : L ↔ M) : Checks r Q M := by
  rwa [← hp, ← hl]

end

theorem checks_refused {α : Type} {P : Prop} (hp : ¬ P) {fault : Text → SettingsError}
    (hf : ∀ written, (fault written).isInvalidSetting = true) (value : Datum) :
    Checks (refused fault value : Except SettingsError α) P value.HoldsLong := by
  unfold refused
  split
  · rename_i written hw
    refine .fail hp ?_ rfl (hf written)
    rw [← Datum.quoted?_eq_none_iff, hw]
    simp
  · rename_i hw
    exact .stop hp (Datum.quoted?_eq_none_iff.mp hw) rfl

theorem checks_toBool (name : Text) (value : Datum) :
    Checks (toBool name value) (IsTruth value) value.HoldsLong := by
  unfold toBool
  split
  · exact .pass (.bool _) rfl
  · rename_i s
    by_cases hy : (Text.strip s).map Char.toLower ∈ yesWords
    · exact .pass (.word (List.mem_append_left _ hy)) (if_pos (List.contains_iff_mem.mpr hy))
    by_cases hn : (Text.strip s).map Char.toLower ∈ noWords
    · refine .pass (.word (List.mem_append_right _ hn)) ((if_neg ?_).trans (if_pos (List.contains_iff_mem.mpr hn)))
      exact fun h => hy (List.contains_iff_mem.mp h)
    · simp only [List.contains_eq_mem, hy, hn, decide_false, Bool.false_eq_true, if_false]
      refine checks_refused ?_ (fun _ => rfl) _
      intro h
      cases h with
      | word hw => exact (List.mem_append.mp hw).elim hy hn
  · rename_i hb ht
    refine checks_refused ?_ (fun _ => rfl) _
    intro h
    cases h with
    | bool b => exact hb b rfl
    | word hw => exact ht _ rfl

theorem checks_toKeys (value : Datum) : Checks (toKeys value) (IsKeys value) value.HoldsLong := by
  unfold toKeys
  split
  · exact .pass (.text _) rfl
  · rename_i items
    split
    · rename_i names hm
      refine .pass (.list ?_) rfl
      rw [← Datum.mapM_plain?_eq_none_iff, hm]
      simp
    · rename_i hm
      have hl : Datum.HoldsLong (.list items) := Datum.mapM_plain?_eq_none_iff.mp hm
      refine .stop ?_ hl rfl
      intro h
      cases h with
      | list hn => exact hn hl
  · rename_i ht hl
    refine checks_refused ?_ (fun _ => rfl) _
    intro h
    cases h with
    | text s => exact ht s rfl
    | list hn => exact hl _ rfl

theorem checks_toEncoding (codecs : Codecs) (value : Datum) :
    Checks (toEncoding codecs value) (IsEncoding codecs value) value.HoldsLong := by
  unfold toEncoding
  split
  · rename_i name
    split
    · rename_i hc
      exact .pass (.name hc) rfl
    · rename_i hc
      refine .fail ?_ (Datum.not_holdsLong_text name) rfl rfl
      intro h
      cases h with
      | name hs => rw [hc] at hs; cases hs
  · rename_i ht
    refine checks_refused ?_ (fun _ => rfl) _
    intro h
    cases h with
    | name hs => exact ht _ rfl

/-! ## Keys -/

theorem isKnown_iff {k : Scalar} : isKnown k = true ↔ ∃ name ∈ knownKeys, k = .text name := by
  cases k <;> simp [isKnown]

theorem textKeys?_text (s : Text) (ks : List Scalar) : textKeys? (.text s :: ks) = (textKeys? ks).map (s :: ·) := by
  rw [textKeys?, List.mapM_cons, ← textKeys?]
  cases textKeys? ks <;> rfl

theorem textKeys?_eq_none_iff : ∀ {ks : List Scalar}, textKeys? ks = none ↔ ∃ k ∈ ks, ∀ s, k ≠ .text s
  | [] => by simp [textKeys?]
  | .text s :: ks => by simp [textKeys?_text, textKeys?_eq_none_iff]
  | .null :: ks | .bool _ :: ks | .int _ :: ks | .float _ :: ks => by simp [textKeys?, List.mapM_cons]

theorem isInvalidSetting_unknownKeysError (k : Scalar) (ks : List Scalar) :
    (unknownKeysError k ks).isInvalidSetting = false ↔ ∃ x ∈ k :: ks, ∀ s, x ≠ .text s := by
  rw [← textKeys?_eq_none_iff]
  unfold unknownKeysError
  split
  · rename_i hk
    simp [hk, SettingsError.isInvalidSetting]
  · rename_i hk
    split <;> simp [hk, SettingsError.isInvalidSetting]

theorem unknownKeysError_ne_numberTooLong (k : Scalar) (ks : List Scalar) :
    unknownKeysError k ks ≠ .numberTooLong := by
  unfold unknownKeysError
  repeat' split
  all_goals simp

theorem checkKeys_cases (entries : List (Scalar × Datum)) :
    (KnowsKeys entries ∧ checkKeys entries = .ok ()) ∨
      ∃ k ks, (∀ x, x ∈ k :: ks ↔ x ∈ entries.map Prod.fst ∧ isKnown x = false) ∧
        checkKeys entries = .error (unknownKeysError k ks) := by
  unfold checkKeys
  split
  · rename_i hf
    refine .inl ⟨fun e he => ?_, rfl⟩
    have := List.filter_eq_nil_iff.mp hf e.1 (List.mem_map_of_mem he)
    exact isKnown_iff.mp (by simpa using this)
  · rename_i k ks hf
    refine .inr ⟨k, ks, fun x => ?_, rfl⟩
    rw [← hf, List.mem_filter, Bool.not_eq_true']

theorem checks_checkKeys {entries : List (Scalar × Datum)} (ht : ∀ e ∈ entries, ∃ s, e.1 = .text s) :
    Checks (checkKeys entries) (KnowsKeys entries) False := by
  rcases checkKeys_cases entries with ⟨hk, h⟩ | ⟨k, ks, hk, h⟩
  · exact .pass hk h
  · refine .fail ?_ id h ?_
    · obtain ⟨hm, hu⟩ := (hk k).mp (by simp)
      obtain ⟨e, he, rfl⟩ := List.mem_map.mp hm
      intro hall
      rw [isKnown_iff.mpr (hall e he)] at hu
      cases hu
    · rw [← Bool.not_eq_false, isInvalidSetting_unknownKeysError]
      rintro ⟨x, hx, hs⟩
      obtain ⟨e, he, rfl⟩ := List.mem_map.mp ((hk x).mp hx).1
      obtain ⟨s, h⟩ := ht e he
      exact hs s h

/-! ## Values by their keys -/

section
variable {codecs : Codecs}

theorem keys_ne : strictKey ≠ accumulatingKey ∧ strictKey ≠ encodingKey ∧ accumulatingKey ≠ encodingKey := by decide

theorem accepts_strict {value : Datum} : Accepts codecs (.text strictKey) value ↔ IsTruth value := by
  simp [Accepts, keys_ne]

theorem accepts_accumulating {value : Datum} : Accepts codecs (.text accumulatingKey) value ↔ IsKeys value := by
  simp [Accepts, keys_ne, keys_ne.1.symm]

theorem accepts_encoding {value : Datum} : Accepts codecs (.text encodingKey) value ↔ IsEncoding codecs value := by
  simp [Accepts, keys_ne.2.1.symm, keys_ne.2.2.symm]

theorem Accepts.known {key : Scalar} {value : Datum} (h : Accepts codecs key value) :
    ∃ name ∈ knownKeys, key = .text name := by
  rcases h with h | h | h <;> exact ⟨_, by simp [knownKeys], h.1⟩

theorem accepts_iff {entries : List (Scalar × Datum)} :
    (KnowsKeys entries ∧ ∀ key ∈ knownKeys, AcceptsAt codecs entries key) ↔
      ∀ e ∈ entries, Accepts codecs e.1 e.2 := by
  constructor
  · rintro ⟨hk, ha⟩ ⟨key, value⟩ hm
    obtain ⟨name, hname, rfl⟩ := hk _ hm
    exact ha name hname value hm
  · intro h
    exact ⟨fun e he => (h e he).known, fun _ _ _ hm => h _ hm⟩

theorem RefusesLong.exists_not_accepts {entries : List (Scalar × Datum)} {keys : List Text}
    (h : RefusesLong codecs entries keys) : ∃ e ∈ entries, ¬ Accepts codecs e.1 e.2 := by
  induction h with
  | here hm hr _ => exact ⟨_, hm, hr⟩
  | later _ _ ih => exact ih

end

/-! ## Settings -/

section
variable {codecs : Codecs} {entries : List (Scalar × Datum)} (hn : (entries.map Prod.fst).Nodup)
include hn

theorem lookup?_eq_some_iff {name : Text} {value : Datum} :
    Datum.lookup? name entries = some value ↔ (.text name, value) ∈ entries := by
  induction entries with
  | nil => simp [Datum.lookup?]
  | cons e entries ih =>
    obtain ⟨k, v⟩ := e
    rw [List.map_cons, List.nodup_cons] at hn
    have ih := ih hn.2
    unfold Datum.lookup? at ih ⊢
    by_cases hk : k = .text name
    · subst hk
      have hm : (Scalar.text name, value) ∉ entries := fun h => hn.1 (List.mem_map.mpr ⟨_, h, rfl⟩)
      simp [hm, eq_comm]
    · simp [hk, ih, Ne.symm hk]

theorem refusesLong_cons {key : Text} {keys : List Text} : RefusesLong codecs entries (key :: keys) ↔
    ¬ AcceptsAt codecs entries key ∧ (∃ value, (.text key, value) ∈ entries ∧ value.HoldsLong) ∨
      AcceptsAt codecs entries key ∧ RefusesLong codecs entries keys := by
  constructor
  · intro h
    cases h with
    | here hm hr hl => exact .inl ⟨fun ha => hr (ha _ hm), _, hm, hl⟩
    | later ha hl => exact .inr ⟨ha, hl⟩
  · rintro (⟨hr, value, hm, hl⟩ | ⟨ha, hl⟩)
    · -- the key has one value, so the one that is refused is the one with the long number
      refine .here hm (fun ha => hr fun value' hm' => ?_) hl
      rw [← lookup?_eq_some_iff hn] at hm hm'
      rw [hm] at hm'
      cases hm'
      exact ha
    · exact .later ha hl

/-- One more key is checked before the others. -/
theorem checks_field {α β : Type} {key : Text} {check : Datum → Except SettingsError α}
    (hc : ∀ value, Checks (check value) (Accepts codecs (.text key) value) value.HoldsLong) (default : α)
    {keys : List Text} {g : α → Except SettingsError β}
    (hg : ∀ a, Checks (g a) (∀ k ∈ keys, AcceptsAt codecs entries k) (RefusesLong codecs entries keys)) :
    Checks (field entries key default check >>= g) (∀ k ∈ key :: keys, AcceptsAt codecs entries k)
      (RefusesLong codecs entries (key :: keys)) := by
  have hfield : Checks (field entries key default check) (AcceptsAt codecs entries key)
      (∃ value, (.text key, value) ∈ entries ∧ value.HoldsLong) := by
    simp only [AcceptsAt, ← lookup?_eq_some_iff hn]
    unfold field
    split
    · rename_i hk
      exact .pass (by simp [hk]) rfl
    · rename_i value hk
      exact (hc value).congr (by simp [hk]) (by simp [hk])
  exact (hfield.bind hg).congr List.forall_mem_cons.symm (refusesLong_cons hn).symm

theorem checks_ofEntries (codecs : Codecs) (ht : ∀ e ∈ entries, ∃ s, e.1 = .text s) :
    Checks (ofEntries codecs entries) (∀ e ∈ entries, Accepts codecs e.1 e.2)
      (KnowsKeys entries ∧ RefusesLong codecs entries knownKeys) := by
  have hs : ∀ value, Checks (toBool strictKey value) (Accepts codecs (.text strictKey) value) value.HoldsLong :=
    fun value => (checks_toBool strictKey value).congr accepts_strict.symm .rfl
  have ha : ∀ value, Checks (toKeys value) (Accepts codecs (.text accumulatingKey) value) value.HoldsLong :=
    fun value => (checks_toKeys value).congr accepts_accumulating.symm .rfl
  have he : ∀ value, Checks (toEncoding codecs value) (Accepts codecs (.text encodingKey) value) value.HoldsLong :=
    fun value => (checks_toEncoding codecs value).congr accepts_encoding.symm .rfl
  have hend : ∀ c : Settings, Checks (pure c : Except SettingsError Settings)
      (∀ k ∈ [], AcceptsAt codecs entries k) (RefusesLong codecs entries []) := fun c => .pass (by simp) rfl
  have hlong : ¬ KnowsKeys entries ∧ False ∨ KnowsKeys entries ∧ RefusesLong codecs entries knownKeys ↔
      KnowsKeys entries ∧ RefusesLong codecs entries knownKeys := by simp
  refine ((checks_checkKeys ht).bind fun _ => ?_).congr accepts_iff hlong
  exact checks_field hn hs _ fun _ => checks_field hn ha _ fun _ => checks_field hn he _ fun _ => hend _

end

theorem ofEntries_of_not_text (codecs : Codecs) {entries : List (Scalar × Datum)} {e : Scalar × Datum}
    (he : e ∈ entries) (hs : ∀ s, e.1 ≠ .text s) :
    ∃ fault, ofEntries codecs entries = .error fault ∧ fault.isInvalidSetting = false ∧ fault ≠ .numberTooLong := by
  have hu : isKnown e.1 = false := by
    rw [← Bool.not_eq_true, isKnown_iff]
    simp [hs]
  rcases checkKeys_cases entries with ⟨hk, -⟩ | ⟨k, ks, hk, h⟩
  · rw [isKnown_iff.mpr (hk e he)] at hu
    cases hu
  · refine ⟨unknownKeysError k ks, ?_, ?_, unknownKeysError_ne_numberTooLong k ks⟩
    · rw [ofEntries, h]
      rfl
    · rw [isInvalidSetting_unknownKeysError]
      exact ⟨e.1, (hk e.1).mpr ⟨List.mem_map_of_mem he, hu⟩, hs⟩

/-- **Entries are accepted or the settings are at fault**, unless the message cannot be written: just if a key is
not a text, or if all keys are known and the first value that is not accepted has too long a number in it. -/
theorem ofEntries_outcome (codecs : Codecs) {entries : List (Scalar × Datum)} (hn : (entries.map Prod.fst).Nodup) :
    ((∃ c, ofEntries codecs entries = .ok c) ↔ ∀ e ∈ entries, Accepts codecs e.1 e.2) ∧
      ((∃ fault, ofEntries codecs entries = .error fault ∧ fault.isInvalidSetting = false) ↔
        (∃ e ∈ entries, ∀ s, e.1 ≠ .text s) ∨ KnowsKeys entries ∧ RefusesLong codecs entries knownKeys) ∧
      (ofEntries codecs entries = .error .numberTooLong ↔
        KnowsKeys entries ∧ RefusesLong codecs entries knownKeys) := by
  by_cases hs : ∃ e ∈ entries, ∀ s, e.1 ≠ .text s
  · -- a key that is not a text is unknown, and it is not accepted either
    obtain ⟨e, he, hs⟩ := hs
    obtain ⟨fault, hf, hv, hl⟩ := ofEntries_of_not_text codecs he hs
    have hk : ¬ ∃ name ∈ knownKeys, e.1 = .text name := fun ⟨name, _, h⟩ => hs name h
    refine ⟨iff_of_false (by simp [hf]) fun h => hk (h e he).known, ?_, ?_⟩
    · exact iff_of_true ⟨fault, hf, hv⟩ (.inl ⟨e, he, hs⟩)
    · exact iff_of_false (by simp [hf, hl]) fun h => hk (h.1 e he)
  · have ht : ∀ e ∈ entries, ∃ s, e.1 = .text s := by simpa using hs
    cases checks_ofEntries hn codecs ht with
    | pass ha h =>
      have hl : ¬ RefusesLong codecs entries knownKeys := fun hl =>
        have ⟨e, he, hr⟩ := hl.exists_not_accepts
        hr (ha e he)
      exact ⟨iff_of_true ⟨_, h⟩ ha, iff_of_false (by simp [h]) (by simp [hs, hl]),
        iff_of_false (by simp [h]) (by simp [hl])⟩
    | fail ha hl h hf =>
      refine ⟨iff_of_false (by simp [h]) ha, iff_of_false (by simp [h, hf]) (not_or.mpr ⟨hs, hl⟩),
        iff_of_false ?_ hl⟩
      rw [h]
      rintro ⟨⟩
      cases hf
    | stop ha hl h => exact ⟨iff_of_false (by simp [h]) ha, iff_of_true ⟨_, h, rfl⟩ (.inr hl), iff_of_true h hl⟩

def spelled : List (Scalar × Datum) :=
  [(.text encodingKey, .text "Latin-1".toList), (.text strictKey, .text " YES\n".toList),
    (.text accumulatingKey, .list [.scalar (.int 1), .null])]

theorem ofEntries_outcome_spelled :
    (spelled.map Prod.fst).Nodup ∧ ∃ c, ofEntries .standard spelled = .ok c := by
  have hn : (spelled.map Prod.fst).Nodup := by decide
  have hname : Encoding.ofName? "Latin-1".toList = some .latin1 := by decide
  have hcodec : Codecs.standard.lookup "Latin-1".toList = some Encoding.latin1.codec :=
    congrArg (Option.map Encoding.codec) hname
  have hshort : ¬ Datum.HoldsLong (.list [.scalar (.int 1), .null]) := by
    rw [← Datum.quoted?_eq_none_iff]
    decide
  refine ⟨hn, (ofEntries_outcome .standard hn).1.mpr ?_⟩
  simp only [spelled, List.forall_mem_cons, List.not_mem_nil, false_implies, implies_true, and_true]
  exact ⟨accepts_encoding.mpr (.name hcodec), accepts_strict.mpr (.word (by decide)),
    accepts_accumulating.mpr (.list hshort)⟩

theorem ofEntries_message_fails :
    (ofEntries .standard [(.int 1, .text ['x'])] = .error (.keyNotText 0 "int") ∧
      (SettingsError.keyNotText 0 "int").isInvalidSetting = false) ∧
    ofEntries .standard [(.text strictKey, .scalar (.int (Nat.pow 16 4000 : Nat)))] = .error .numberTooLong ∧
      SettingsError.numberTooLong.isInvalidSetting = false := by
  refine ⟨⟨rfl, rfl⟩, ?_, rfl⟩
  have hlong : Nat.pow 10 Text.digitLimit ≤ Nat.pow 16 4000 := by decide +kernel
  generalize Nat.pow 16 4000 = n at hlong ⊢
  have hn : Text.ofInt? n = none := Text.ofInt?_eq_none_iff.mpr hlong
  have hs : toBool strictKey (.scalar (.int n)) = .error .numberTooLong := by
    simp [toBool, refused, Datum.quoted?, Scalar.quoted?, hn]
  have hf : field [(.text strictKey, .scalar (.int n))] strictKey true (toBool strictKey) =
      .error .numberTooLong := hs
  have hk : checkKeys [(.text strictKey, .scalar (.int n))] = .ok () := rfl
  simp [ofEntries, hk, hf, bind, Except.bind]

end Settings

end PatternBook
