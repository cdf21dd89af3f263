import PatternBook.Proofs.MergeSound

/-!
# Splitting the calls that make up a pattern

A part of the calls is known to the merge by the values it ends with. A list that a part began anew, by
setting the key and then appending to it, looks like one that only grew: merged, it goes behind what earlier
parts hold, while in one pattern it replaces that. `Kept` says for which keys this cannot happen; for these,
and for no others, splitting the calls leaves the value as it is.
-/

namespace PatternBook

/-! ## The values of a key -/

inductive MetaCall where
  | set (key value : Text)
  | append (key value : Text)
deriving DecidableEq

namespace MetaCall

def key : MetaCall → Text
  | set key _ | append key _ => key

def text : MetaCall → Text
  | set _ value | append _ value => value

def value : MetaCall → MetaValue
  | set _ value => .single value
  | append _ value => .many [value]

def entry (c : MetaCall) : Text × MetaValue := (c.key, c.value)

def isSet : MetaCall → Bool
  | set .. => true
  | append .. => false

def on (key : Text) (calls : List MetaCall) : List MetaCall := calls.filter fun c => c.key = key

def held (current : Option MetaValue) (calls : List MetaCall) : Option MetaValue :=
  MetaValue.given current (calls.map value)

def merged (parts : List (List MetaCall)) : Option MetaValue :=
  MetaValue.given none (parts.filterMap (held none))

/-- The last of the parts that set the key ends with a set, or no part before it has a call for the key. -/
def Kept (parts : List (List MetaCall)) : Prop :=
  match parts.reverse.dropWhile fun calls => !calls.any isSet with
  | [] => True
  | calls :: earlier => calls.getLast?.any isSet = true ∨ ∀ calls ∈ earlier, calls = []

end MetaCall

namespace MetaValue

def textsOf (current : Option MetaValue) : List Text := current.elim [] texts

theorem combine_many (current : Option MetaValue) (new : List Text) :
    combine current (many new) = many (textsOf current ++ new) := by
  rcases current with _ | (_ | _) <;> rfl

theorem texts_combine_ne_nil (current : Option MetaValue) {v : MetaValue} (h : v.texts ≠ []) :
    (combine current v).texts ≠ [] := by
  cases v with
  | single value => exact h
  | many new =>
    have hnew : new ≠ [] := h
    rw [combine_many]
    simp [texts, hnew]

end MetaValue

namespace MetaCall

open MetaValue

theorem held_append (current : Option MetaValue) (calls more : List MetaCall) :
    held current (calls ++ more) = held (held current calls) more := by
  rw [held, List.map_append, given_append]
  rfl

theorem held_concat (current : Option MetaValue) (calls : List MetaCall) (c : MetaCall) :
    held current (calls ++ [c]) = some (combine (held current calls) c.value) := held_append current calls [c]

theorem held_many {calls : List MetaCall} (h : calls.any isSet = false) (old : List Text) :
    held (some (.many old)) calls = some (.many (old ++ calls.map text)) := by
  induction calls generalizing old with
  | nil => rw [List.map_nil, List.append_nil]; rfl
  | cons c calls ih =>
    cases c with
    | set key value => simp [isSet] at h
    | append key value =>
      have ih' := ih (by simpa [isSet] using h) (old ++ [value])
      rwa [List.append_assoc] at ih'

theorem given_held_of_appends {calls : List MetaCall} (h : calls.any isSet = false) (current : Option MetaValue) :
    given current (held none calls).toList = held current calls := by
  cases calls with
  | nil => rfl
  | cons c calls =>
    cases c with
    | set key value => simp [isSet] at h
    | append key value =>
      have hc : calls.any isSet = false := by simpa [isSet] using h
      have hnone : held none (append key value :: calls) = some (.many ([value] ++ calls.map text)) :=
        held_many hc [value]
      have hcur : held current (append key value :: calls) =
          some (.many ((textsOf current ++ [value]) ++ calls.map text)) := by
        rw [← held_many hc, ← combine_many]
        rfl
      rw [hnone, hcur, List.append_assoc, ← combine_many]
      rfl

theorem held_of_set {calls : List MetaCall} (h : calls.any isSet = true) (current : Option MetaValue) :
    held current calls = held none calls := by
  induction calls generalizing current with
  | nil => simp at h
  | cons c calls ih =>
    cases c with
    | set key value => rfl
    | append key value =>
      have hc : calls.any isSet = true := by simpa [isSet] using h
      exact (ih hc _).trans (ih hc _).symm

theorem values_entry (key : Text) (calls : List MetaCall) :
    Assoc.values key (calls.map entry) = (on key calls).map value := by
  induction calls with
  | nil => rfl
  | cons c calls ih =>
    by_cases hc : c.key = key <;> simpa [Assoc.values, on, entry, hc] using ih

/-! ## Merging part by part -/

theorem merged_concat (parts : List (List MetaCall)) (calls : List MetaCall) :
    merged (parts ++ [calls]) = given (merged parts) (held none calls).toList := by
  have hc : [calls].filterMap (held none) = (held none calls).toList := by
    cases hh : held none calls <;> simp [hh]
  rw [merged, List.filterMap_append, given_append, hc]
  rfl

theorem held_flatten_concat (parts : List (List MetaCall)) (calls : List MetaCall) :
    held none (parts ++ [calls]).flatten = held (held none parts.flatten) calls := by
  rw [List.flatten_append, List.flatten_singleton, held_append]

theorem kept_concat_of_appends {calls : List MetaCall} (h : calls.any isSet = false)
    (parts : List (List MetaCall)) : Kept (parts ++ [calls]) ↔ Kept parts := by
  simp [Kept, h]

theorem kept_concat_of_set {calls : List MetaCall} (h : calls.any isSet = true)
    (parts : List (List MetaCall)) :
    Kept (parts ++ [calls]) ↔ calls.getLast?.any isSet = true ∨ ∀ calls ∈ parts, calls = [] := by
  simp [Kept, h]

theorem texts_held_ne_nil {calls : List MetaCall} (h : calls ≠ []) (current : Option MetaValue) :
    textsOf (held current calls) ≠ [] := by
  obtain ⟨calls, c, rfl⟩ := (List.eq_nil_or_concat calls).resolve_left h
  rw [List.concat_eq_append, held_concat]
  have hv : c.value.texts ≠ [] := by cases c <;> simp [value, texts]
  exact texts_combine_ne_nil _ hv

theorem textsOf_merged_eq_nil_iff (parts : List (List MetaCall)) :
    textsOf (merged parts) = [] ↔ ∀ calls ∈ parts, calls = [] := by
  induction parts using List.reverseRecOn with
  | nil => simp [merged, given, textsOf]
  | append_singleton parts calls ih =>
    rw [merged_concat, List.forall_mem_append, List.forall_mem_singleton]
    by_cases hc : calls = []
    · subst hc
      simpa [held, given] using ih
    · have ht := texts_held_ne_nil hc none
      obtain ⟨v, hv⟩ : ∃ v, held none calls = some v := by
        cases hh : held none calls with
        | none => simp [hh, textsOf] at ht
        | some v => exact ⟨v, rfl⟩
      rw [hv] at ht ⊢
      have hne := texts_combine_ne_nil (merged parts) ht
      exact ⟨fun h => absurd h hne, fun h => absurd h.2 hc⟩

/-- **Part by part.** The parts are merged to what the calls give in one go, or to a longer list. -/
theorem merged_cases (parts : List (List MetaCall)) :
    Kept parts ∧ merged parts = held none parts.flatten ∨
      ¬Kept parts ∧ ∃ long short, merged parts = some (.many long) ∧
        held none parts.flatten = some (.many short) ∧ short.length < long.length := by
  induction parts using List.reverseRecOn with
  | nil => exact .inl ⟨trivial, rfl⟩
  | append_singleton parts calls ih =>
    rw [merged_concat, held_flatten_concat]
    cases hs : calls.any isSet with
    | false =>
      rw [kept_concat_of_appends hs, given_held_of_appends hs]
      rcases ih with ⟨hk, he⟩ | ⟨hk, long, short, hl, hsh, hlt⟩
      · exact .inl ⟨hk, by rw [he]⟩
      · rw [hl, hsh, held_many hs, held_many hs]
        exact .inr ⟨hk, _, _, rfl, rfl, by simpa using hlt⟩
    | true =>
      -- what came before is gone from the one pattern, and the last call decides whether the merge shows it
      rw [kept_concat_of_set hs, held_of_set hs (held none parts.flatten)]
      have hne : calls ≠ [] := by rintro rfl; simp at hs
      obtain ⟨calls, c, rfl⟩ := (List.eq_nil_or_concat calls).resolve_left hne
      rw [List.concat_eq_append, held_concat]
      cases c with
      | set key value =>
        have hlast : (calls ++ [set key value]).getLast?.any isSet = true := by simp [isSet]
        exact .inl ⟨.inl hlast, rfl⟩
      | append key value =>
        have hlast : ¬(calls ++ [append key value]).getLast?.any isSet = true := by simp [isSet]
        have hm : given (merged parts) (some (combine (held none calls) (append key value).value)).toList =
            some (.many (textsOf (merged parts) ++ (textsOf (held none calls) ++ [value]))) := by
          rw [← combine_many, ← combine_many]
          rfl
        have hh : combine (held none calls) (append key value).value =
            .many (textsOf (held none calls) ++ [value]) := combine_many ..
        by_cases he : ∀ calls ∈ parts, calls = []
        · rw [hm, hh, (textsOf_merged_eq_nil_iff parts).mpr he]
          exact .inl ⟨.inr he, rfl⟩
        · have ht : textsOf (merged parts) ≠ [] := fun h => he ((textsOf_merged_eq_nil_iff parts).mp h)
          have hpos := List.length_pos_iff.mpr ht
          refine .inr ⟨not_or.mpr ⟨hlast, he⟩, _, _, hm, congrArg some hh, ?_⟩
          simp only [List.length_append]
          omega

theorem merged_eq_iff (parts : List (List MetaCall)) : merged parts = held none parts.flatten ↔ Kept parts := by
  rcases merged_cases parts with ⟨hk, he⟩ | ⟨hk, long, short, hl, hs, hlt⟩
  · exact ⟨fun _ => hk, fun _ => he⟩
  · refine ⟨fun he => ?_, fun h => absurd h hk⟩
    rw [hl, hs] at he
    obtain rfl : long = short := by simpa using he
    exact absurd hlt (lt_irrefl _)

end MetaCall

/-! ## Patterns made by calls -/

namespace Pattern

open MetaCall

def call (p : Pattern) : MetaCall → Pattern
  | .set key value => p.setMeta key value
  | .append key value => p.appendMeta key value

def record (name : Text) (calls : List MetaCall) : Pattern :=
  calls.foldl call { name := name, metadata := .empty }

theorem foldl_call : ∀ (calls : List MetaCall) (p : Pattern), (calls.foldl call p).name = p.name ∧
    (calls.foldl call p).metadata = (calls.map entry).foldl (fun m e => m.give e.1 e.2) p.metadata
  | [], _ => ⟨rfl, rfl⟩
  | .set .. :: calls, _ => foldl_call calls _
  | .append .. :: calls, _ => foldl_call calls _

theorem keys_record (name : Text) (calls : List MetaCall) :
    (record name calls).metadata.keys = (calls.map key).eraseDups := by
  have hk : ((calls.map entry).foldl (fun m e => m.give e.1 e.2) Metadata.empty).keys =
      ([] ++ Assoc.keys (calls.map entry)).eraseDups := Metadata.keys_foldl_give _ rfl
  rw [record, (foldl_call calls _).2, hk, List.nil_append, Assoc.keys, List.map_map]
  rfl

theorem get?_record (name key : Text) (calls : List MetaCall) :
    (record name calls).metadata.get? key = held none (on key calls) := by
  rw [record, (foldl_call calls _).2, Metadata.get?_foldl_give, values_entry]
  rfl

section
variable {name : Text} {parts : List (List MetaCall)} {p : Pattern} (h : IsUnion (parts.map (record name)) p)
include h

theorem keys_records : p.metadata.keys = (record name parts.flatten).metadata.keys := by
  have hk : ∀ calls, (record name calls).metadata.keys.eraseDups = (calls.map key).eraseDups := by
    intro calls
    rw [keys_record, eraseDups_eraseDups]
  rw [h.keys, keys_record, List.flatMap_map, eraseDups_flatMap hk, List.map_flatten]
  rfl

theorem get?_records_iff (key : Text) :
    p.metadata.get? key = (record name parts.flatten).metadata.get? key ↔ Kept (parts.map (on key)) := by
  have hp : p.metadata.get? key = merged (parts.map (on key)) := by
    rw [h.values, List.filterMap_map, merged, List.filterMap_map]
    exact congrArg _ (List.filterMap_congr fun calls _ => get?_record name key calls)
  have hflat : on key parts.flatten = (parts.map (on key)).flatten := List.filter_flatten
  rw [hp, get?_record, hflat]
  exact merged_eq_iff _

end

/-- **Splitting the calls.** The parts are merged to one pattern with the keys of the pattern that all calls
make, in the same order, and the two hold the same value for exactly the keys that are kept. -/
theorem merge_records (name : Text) (part : List MetaCall) (parts : List (List MetaCall)) :
    ∃ p, merge ((part :: parts).map (record name)) = [p] ∧
      p.metadata.keys = (record name (part :: parts).flatten).metadata.keys ∧
      (∀ key, p.metadata.get? key = (record name (part :: parts).flatten).metadata.get? key ↔
        Kept ((part :: parts).map (on key))) ∧
      (p.metadata = (record name (part :: parts).flatten).metadata ↔
        ∀ key, Kept ((part :: parts).map (on key))) := by
  have hn : ∀ q ∈ (part :: parts).map (record name), q.name = name := by
    rintro q hq
    obtain ⟨calls, -, rfl⟩ := List.mem_map.mp hq
    exact (foldl_call calls _).1
  obtain ⟨p, hp, hu⟩ := merge_same_name (by simp) hn
  have hk := keys_records hu
  have hv := get?_records_iff hu
  refine ⟨p, hp, hk, hv, ?_, ?_⟩
  · intro he key
    rw [← hv, he]
  · intro hkept
    exact Metadata.ext_get? hk fun key => (hv key).mpr (hkept key)

def restarted : List (List MetaCall) :=
  [[.append "todo".toList "size".toList],
    [.set "todo".toList "gaps".toList, .append "todo".toList "tests".toList]]

/-- A list begun anew goes behind the one that it replaces in one pattern. Its part ends as if nothing had
been set, so no merge of the parts can tell. -/
theorem merge_records_restarted :
    (merge (restarted.map (record "Grid".toList))).map metadata ≠
        [(record "Grid".toList restarted.flatten).metadata] ∧
      (merge (restarted.map (record "Grid".toList))).map (fun p => p.metadata.get? "todo".toList) =
        [some (.many ["size".toList, "gaps".toList, "tests".toList])] ∧
      (record "Grid".toList restarted.flatten).metadata.get? "todo".toList =
        some (.many ["gaps".toList, "tests".toList]) ∧
      record "Grid".toList [.set "todo".toList "gaps".toList, .append "todo".toList "tests".toList] =
        record "Grid".toList [.append "todo".toList "gaps".toList, .append "todo".toList "tests".toList] := by
  decide

end Pattern

end PatternBook
