import PatternBook.Proofs.IndentLemmas
import PatternBook.Settings.OfDatum

/-!
# Settings read back

Keys are kept in a normal form: trimmed, none empty, in increasing order and so each of them once. What is in
this form already is kept as it is, so settings are read back from their data, and from variables of the
environment as well, unless a comma in a key would cut it in two.
-/

namespace PatternBook

namespace Settings

/-! ## Keys in order -/

theorem insertSorted_of_lt {key : Text} {ks : List Text} (h : ∀ k ∈ ks, key < k) :
    insertSorted key ks = key :: ks := by
  cases ks with
  | nil => rfl
  | cons k ks =>
    have hk := h k (by simp)
    rw [insertSorted, if_neg hk.ne', if_pos (Text.le_iff.mpr hk.le)]

theorem mem_insertSorted {key k : Text} : ∀ {ks : List Text}, k ∈ insertSorted key ks ↔ k = key ∨ k ∈ ks
  | [] => by simp [insertSorted]
  | j :: ks => by
    have ih := @mem_insertSorted key k ks
    rw [insertSorted]
    split
    · rename_i hj
      subst hj
      simp
    · split
      · simp
      · simp [ih, or_left_comm]

theorem increasing_insertSorted (key : Text) : ∀ {ks : List Text}, ks.Pairwise (· < ·) →
    (insertSorted key ks).Pairwise (· < ·)
  | [], _ => by simp [insertSorted]
  | k :: ks, h => by
    have hks := List.pairwise_cons.mp h
    rw [insertSorted]
    split
    · exact h
    · rename_i hne
      split
      · rename_i hle
        have hlt : key < k := lt_of_le_of_ne (Text.le_iff.mp hle) (Ne.symm hne)
        refine List.pairwise_cons.mpr ⟨fun j hj => ?_, h⟩
        rcases List.mem_cons.mp hj with rfl | hj
        · exact hlt
        · exact hlt.trans (hks.1 j hj)
      · rename_i hle
        have hlt : k < key := Text.le_eq_false_iff.mp (by simpa using hle)
        refine List.pairwise_cons.mpr ⟨fun j hj => ?_, increasing_insertSorted key hks.2⟩
        rcases mem_insertSorted.mp hj with rfl | hj
        · exact hlt
        · exact hks.1 j hj

structure KeysNormal (ks : List Text) : Prop where
  increasing : ks.Pairwise (· < ·)
  trimmed : ∀ k ∈ ks, k ≠ [] ∧ Text.Trimmed Text.isBlank k

theorem keySet_cons (t : Text) (items : List Text) : keySet (t :: items) =
    if Text.strip t = [] then keySet items else insertSorted (Text.strip t) (keySet items) := by
  unfold keySet
  by_cases h : Text.strip t = [] <;> simp [h]

theorem keysNormal_keySet (items : List Text) : KeysNormal (keySet items) := by
  induction items with
  | nil => exact ⟨.nil, by simp [keySet]⟩
  | cons t items ih =>
    rw [keySet_cons]
    split
    · exact ih
    · rename_i hne
      refine ⟨increasing_insertSorted _ ih.increasing, fun k hk => ?_⟩
      rcases mem_insertSorted.mp hk with rfl | hk
      · exact ⟨hne, Text.trimmed_trim _ t⟩
      · exact ih.trimmed k hk

theorem keySet_of_normal : ∀ {ks : List Text}, KeysNormal ks → keySet ks = ks
  | [], _ => rfl
  | k :: ks, h => by
    obtain ⟨hlt, hks⟩ := List.pairwise_cons.mp h.increasing
    obtain ⟨hne, hk⟩ := h.trimmed k (by simp)
    have ih := keySet_of_normal ⟨hks, fun j hj => h.trimmed j (List.mem_cons_of_mem k hj)⟩
    rw [keySet_cons, Text.strip_of_trimmed hk, if_neg hne, ih, insertSorted_of_lt hlt]

theorem mapM_plain?_text (ks : List Text) : (ks.map Datum.text).mapM Datum.plain? = some ks := by
  induction ks with
  | nil => rfl
  | cons k ks ih =>
    rw [List.map_cons, List.mapM_cons, ih]
    rfl

theorem toKeys_list {ks : List Text} (h : KeysNormal ks) : toKeys (.list (ks.map Datum.text)) = .ok ks := by
  rw [toKeys, mapM_plain?_text]
  exact congrArg Except.ok (keySet_of_normal h)

theorem toKeys_join {ks : List Text} (h : KeysNormal ks) (hc : ∀ k ∈ ks, ',' ∉ k) :
    toKeys (.text (Text.join [','] ks)) = .ok ks := by
  by_cases hne : ks = []
  · subst hne; rfl
  · have hs : Text.splitAt ',' (Text.join [','] ks) = ks := by
      rw [Text.splitAt_eq_splitOn]
      exact List.splitOn_intercalate ',' hc hne
    rw [Datum.text, toKeys, hs, keySet_of_normal h]

/-! ## Settings -/

structure Normal (codecs : Codecs) (c : Settings) : Prop where
  keys : KeysNormal c.accumulating
  encoding : ∃ codec, codecs.lookup c.encoding = some codec

theorem bind_eq_ok {α β : Type} {r : Except SettingsError α} {g : α → Except SettingsError β} {b : β}
    (h : r >>= g = .ok b) : ∃ a, r = .ok a ∧ g a = .ok b := by
  cases r with
  | error fault => cases h
  | ok a => exact ⟨a, rfl, h⟩

theorem field_keeps {α : Type} {P : α → Prop} {check : Datum → Except SettingsError α}
    (hc : ∀ {value a}, check value = .ok a → P a) {default : α} (hd : P default) {entries : List (Scalar × Datum)}
    {key : Text} {a : α} (h : field entries key default check = .ok a) : P a := by
  unfold field at h
  split at h
  · cases h
    exact hd
  · exact hc h

theorem refused_ne_ok {α : Type} {fault : Text → SettingsError} {value : Datum} {a : α} :
    refused fault value ≠ .ok a := by
  unfold refused
  split <;> simp

theorem keysNormal_toKeys {value : Datum} {ks : List Text} (h : toKeys value = .ok ks) : KeysNormal ks := by
  unfold toKeys at h
  split at h
  · cases h
    exact keysNormal_keySet _
  · split at h
    · cases h
      exact keysNormal_keySet _
    · cases h
  · exact (refused_ne_ok h).elim

section
variable {codecs : Codecs}

theorem toEncoding_eq_ok_iff {value : Datum} {name : Text} :
    toEncoding codecs value = .ok name ↔ value = .text name ∧ ∃ codec, codecs.lookup name = some codec := by
  constructor
  · intro h
    unfold toEncoding at h
    split at h
    · split at h
      · rename_i hc
        cases h
        exact ⟨rfl, _, hc⟩
      · cases h
    · exact (refused_ne_ok h).elim
  · rintro ⟨rfl, codec, hc⟩
    rw [Datum.text, toEncoding, hc]

theorem normal_ofEntries {entries : List (Scalar × Datum)} {c : Settings} (h : ofEntries codecs entries = .ok c) :
    c.Normal codecs := by
  obtain ⟨-, -, h⟩ := bind_eq_ok h
  obtain ⟨strict, -, h⟩ := bind_eq_ok h
  obtain ⟨ks, hks, h⟩ := bind_eq_ok h
  obtain ⟨name, hname, h⟩ := bind_eq_ok h
  cases h
  exact ⟨field_keeps keysNormal_toKeys ⟨by simp, by decide⟩ hks,
    field_keeps (fun he => (toEncoding_eq_ok_iff.mp he).2) ⟨_, codecs.lookup_utf8⟩ hname⟩

theorem ofEntries_of_values {strict keys encoding : Datum} {c : Settings}
    (hs : toBool strictKey strict = .ok c.strict) (hk : toKeys keys = .ok c.accumulating)
    (he : toEncoding codecs encoding = .ok c.encoding) :
    ofEntries codecs [(.text strictKey, strict), (.text accumulatingKey, keys), (.text encodingKey, encoding)] =
      .ok c := by
  have hsk : strictKey ≠ accumulatingKey := by decide
  have hse : strictKey ≠ encodingKey := by decide
  have hke : accumulatingKey ≠ encodingKey := by decide
  have hknown :
      checkKeys [(.text strictKey, strict), (.text accumulatingKey, keys), (.text encodingKey, encoding)] =
        .ok () := rfl
  simp [ofEntries, hknown, field, Datum.lookup?, hsk, hse, hke, hs, hk, he, bind, Except.bind, pure, Except.pure]

theorem Normal.ofEntries_toEntries {c : Settings} (h : c.Normal codecs) : ofEntries codecs c.toEntries = .ok c :=
  ofEntries_of_values rfl (toKeys_list h.keys) (toEncoding_eq_ok_iff.mpr ⟨rfl, h.encoding⟩)

def toEnvironment (c : Settings) : List (Text × Text) :=
  [("PATTERNDOC_STRICT".toList, Text.ofBool c.strict),
   ("PATTERNDOC_ACCUMULATE_KEYS".toList, Text.join [','] c.accumulating),
   ("PATTERNDOC_ENCODING".toList, c.encoding)]

theorem toBool_ofBool (name : Text) (b : Bool) : toBool name (.text (Text.ofBool b)) = .ok b := by
  cases b <;> rfl

theorem Normal.ofEnvironment_toEnvironment {c : Settings} (h : c.Normal codecs) (hc : ∀ k ∈ c.accumulating, ',' ∉ k)
    {get? : Text → Option Text} (hg : ∀ e ∈ c.toEnvironment, get? e.1 = some e.2) :
    ofEnvironment codecs get? = .ok c := by
  simp only [toEnvironment, List.forall_mem_cons] at hg
  obtain ⟨hs, hk, he, -⟩ := hg
  rw [ofEnvironment]
  simp only [environmentNames, List.filterMap_cons, hs, hk, he, Option.map_some, List.filterMap_nil]
  exact ofEntries_of_values (toBool_ofBool _ _) (toKeys_join h.keys hc) (toEncoding_eq_ok_iff.mpr ⟨rfl, h.encoding⟩)

end

/-- **Settings read back.** What was made of data is made again of its own data, and of its variables in any
environment if no key has a comma; the keys among the data are in normal form. -/
theorem ofEntries_roundTrip (codecs : Codecs) {entries : List (Scalar × Datum)} {c : Settings}
    (h : ofEntries codecs entries = .ok c) :
    ofEntries codecs c.toEntries = .ok c ∧
      (Datum.lookup? accumulatingKey c.toEntries = some (.list (c.accumulating.map Datum.text)) ∧
        c.accumulating.Pairwise (· < ·) ∧ ∀ k ∈ c.accumulating, k ≠ [] ∧ Text.Trimmed Text.isBlank k) ∧
      ((∀ k ∈ c.accumulating, ',' ∉ k) → ∀ get? : Text → Option Text,
        (∀ e ∈ c.toEnvironment, get? e.1 = some e.2) → ofEnvironment codecs get? = .ok c) := by
  have hn := normal_ofEntries h
  exact ⟨hn.ofEntries_toEntries, ⟨rfl, hn.keys.increasing, hn.keys.trimmed⟩,
    fun hc _ hg => hn.ofEnvironment_toEnvironment hc hg⟩

def untidy : List (Scalar × Datum) :=
  [(.text strictKey, .text "Off".toList),
   (.text accumulatingKey,
    .list [.text " b\t".toList, .scalar (.int 7), .text " ".toList, .text "b".toList, .null])]

def tidy : Settings := ⟨false, ["7".toList, "None".toList, "b".toList], "utf-8".toList⟩

theorem ofEntries_roundTrip_untidy : ofEntries .standard untidy = .ok tidy ∧
    ofEntries .standard tidy.toEntries = .ok tidy ∧
    ofEnvironment .standard (fun name => tidy.toEnvironment.lookup name) = .ok tidy := by
  have h : ofEntries .standard untidy = .ok tidy := by rfl
  obtain ⟨hd, -, he⟩ := ofEntries_roundTrip .standard h
  exact ⟨h, hd, he (by decide) _ (by decide)⟩

end Settings

end PatternBook
