import Mathlib.Data.List.Induction
import PatternBook.Pattern

/-!
# Laws of metadata

A key that is given for the first time goes to the end. So metadata merged into metadata without any of
its keys is put behind it as it is, and a pattern merged alone is itself. Metadata is known by its keys and
by the value of each: pairs given one after the other add their keys in the order of first mention, and
each key combines the values that are given to it.
-/

namespace PatternBook

/-! ## First mentions -/

section
variable {α : Type} [BEq α] [LawfulBEq α] {a : α} {l : List α}

theorem eraseDups_concat_of_mem (h : a ∈ l) : (l ++ [a]).eraseDups = l.eraseDups := by
  simp [List.eraseDups_append, List.removeAll, h]

theorem eraseDups_concat_of_not_mem (h : a ∉ l) : (l ++ [a]).eraseDups = l.eraseDups ++ [a] := by
  simp [List.eraseDups_append, List.removeAll, h, List.eraseDups_cons]

theorem eraseDups_of_forall_eq (hne : l ≠ []) (h : ∀ b ∈ l, b = a) : l.eraseDups = [a] := by
  obtain ⟨b, l, rfl⟩ := List.exists_cons_of_ne_nil hne
  obtain rfl : b = a := h b (by simp)
  have hl : l.filter (fun c => !c == b) = [] := by
    rw [List.filter_eq_nil_iff]
    intro c hc
    simp [h c (by simp [hc])]
  rw [List.eraseDups_cons, hl]
  rfl

theorem eraseDups_eraseDups (l : List α) : l.eraseDups.eraseDups = l.eraseDups := by
  induction l using List.reverseRecOn with
  | nil => rfl
  | append_singleton l a ih =>
    by_cases ha : a ∈ l
    · rw [eraseDups_concat_of_mem ha, ih]
    · have hd : a ∉ l.eraseDups := fun h => ha (List.mem_eraseDups.mp h)
      rw [eraseDups_concat_of_not_mem ha, eraseDups_concat_of_not_mem hd, ih]

theorem eraseDups_filter (p : α → Bool) (l : List α) : (l.filter p).eraseDups = l.eraseDups.filter p := by
  induction l using List.reverseRecOn with
  | nil => rfl
  | append_singleton l a ih =>
    rw [List.filter_append]
    by_cases hp : p a = true
    · have hs : [a].filter p = [a] := by simp [hp]
      by_cases ha : a ∈ l
      · have hf : a ∈ l.filter p := List.mem_filter.mpr ⟨ha, hp⟩
        rw [hs, eraseDups_concat_of_mem ha, eraseDups_concat_of_mem hf, ih]
      · have hf : a ∉ l.filter p := fun h => ha (List.mem_filter.mp h).1
        rw [hs, eraseDups_concat_of_not_mem ha, eraseDups_concat_of_not_mem hf, ih, List.filter_append, hs]
    · by_cases ha : a ∈ l
      · simp [hp, eraseDups_concat_of_mem ha, ih]
      · simp [hp, eraseDups_concat_of_not_mem ha, ih]

/-- Of the parts, too, only the first mentions count. -/
theorem eraseDups_append_congr {l l' m m' : List α} (hl : l.eraseDups = l'.eraseDups)
    (hm : m.eraseDups = m'.eraseDups) : (l ++ m).eraseDups = (l' ++ m').eraseDups := by
  have hmem : ∀ a, l.elem a = l'.elem a := by
    intro a
    rw [Bool.eq_iff_iff, List.elem_iff, List.elem_iff, ← List.mem_eraseDups, hl, List.mem_eraseDups]
  rw [List.eraseDups_append, List.eraseDups_append, List.removeAll, List.removeAll, eraseDups_filter,
    eraseDups_filter, hl, hm]
  simp only [hmem]

theorem eraseDups_flatMap {β : Type} {f g : β → List α} (h : ∀ b, (f b).eraseDups = (g b).eraseDups) :
    ∀ bs : List β, (bs.flatMap f).eraseDups = (bs.flatMap g).eraseDups
  | [] => rfl
  | b :: bs => by
    rw [List.flatMap_cons, List.flatMap_cons]
    exact eraseDups_append_congr (h b) (eraseDups_flatMap h bs)

end

/-! ## Association lists -/

namespace Assoc

variable {κ α : Type}

theorem keys_append (m n : List (κ × α)) : keys (m ++ n) = keys m ++ keys n := List.map_append

variable [DecidableEq κ]

theorem get?_eq_none {k : κ} : ∀ {m : List (κ × α)}, k ∉ keys m → get? k m = none
  | [], _ => rfl
  | (k', v) :: m, h => by
    rw [keys, List.map_cons, List.mem_cons, not_or] at h
    rw [get?, if_neg (Ne.symm h.1)]
    exact get?_eq_none h.2

section
variable {k : κ} (v w : α)

theorem insert_append : ∀ {m : List (κ × α)}, k ∉ keys m → ∀ n : List (κ × α),
    insert k v (m ++ n) = m ++ insert k v n
  | [], _, n => rfl
  | (k', v') :: m, h, n => by
    rw [keys, List.map_cons, List.mem_cons, not_or] at h
    rw [List.cons_append, insert, if_neg (Ne.symm h.1), insert_append h.2]
    rfl

theorem insert_of_not_mem {m : List (κ × α)} (h : k ∉ keys m) : insert k v m = m ++ [(k, v)] := by
  have := insert_append v h []
  rwa [List.append_nil] at this

theorem insert_concat {m : List (κ × α)} (h : k ∉ keys m) : insert k w (m ++ [(k, v)]) = m ++ [(k, w)] := by
  rw [insert_append w h, insert, if_pos rfl]

theorem get?_concat : ∀ {m : List (κ × α)}, k ∉ keys m → get? k (m ++ [(k, v)]) = some v
  | [], _ => by simp [get?]
  | (k', v') :: m, h => by
    rw [keys, List.map_cons, List.mem_cons, not_or] at h
    rw [List.cons_append, get?, if_neg (Ne.symm h.1)]
    exact get?_concat h.2

end

theorem ofList_of_nodup {m : List (κ × α)} (h : (keys m).Nodup) : ofList m = m := by
  induction m using List.reverseRecOn with
  | nil => rfl
  | append_singleton m p ih =>
    rw [keys_append, List.nodup_append] at h
    obtain ⟨hm, -, hd⟩ := h
    have hp : p.1 ∉ keys m := fun hk => hd _ hk p.1 (by simp [keys]) rfl
    have ih : m.foldl (fun m p => insert p.1 p.2 m) [] = m := ih hm
    rw [ofList, List.foldl_append, ih]
    exact insert_of_not_mem p.2 hp

theorem get?_insert (k j : κ) (v : α) : ∀ m : List (κ × α),
    get? j (insert k v m) = if k = j then some v else get? j m
  | [] => rfl
  | (k', v') :: m => by
    rw [insert]
    by_cases hk : k' = k
    · subst hk
      by_cases hj : k' = j <;> simp [get?, hj]
    · rw [if_neg hk, get?, get?, get?_insert k j v m]
      by_cases hj : k' = j
      · subst hj
        simp [Ne.symm hk]
      · simp [hj]

theorem keys_insert_of_mem {k : κ} (v : α) : ∀ {m : List (κ × α)}, k ∈ keys m → keys (insert k v m) = keys m
  | (k', v') :: m, h => by
    rw [insert]
    by_cases hk : k' = k
    · rw [if_pos hk]; rfl
    · have hm : k ∈ keys m := by simpa [keys, Ne.symm hk] using h
      rw [if_neg hk]
      exact congrArg (k' :: ·) (keys_insert_of_mem v hm)

def values (k : κ) (m : List (κ × α)) : List α := m.filterMap fun e => if e.1 = k then some e.2 else none

theorem values_eq_nil {k : κ} : ∀ {m : List (κ × α)}, k ∉ keys m → values k m = []
  | [], _ => rfl
  | (k', v) :: m, h => by
    rw [keys, List.map_cons, List.mem_cons, not_or] at h
    have ih : values k m = [] := values_eq_nil h.2
    simpa [values, Ne.symm h.1] using ih

theorem values_of_nodup {k : κ} : ∀ {m : List (κ × α)}, (keys m).Nodup → values k m = (get? k m).toList
  | [], _ => rfl
  | (k', v) :: m, h => by
    rw [keys, List.map_cons, List.nodup_cons] at h
    by_cases hk : k' = k
    · subst hk
      have hm : values k' m = [] := values_eq_nil h.1
      rw [get?, if_pos rfl]
      simpa [values] using hm
    · have ih : values k m = (get? k m).toList := values_of_nodup h.2
      rw [get?, if_neg hk, ← ih]
      simp [values, hk]

/-- Distinct keys and the value of each make up the list. -/
theorem ext_get? : ∀ {m n : List (κ × α)}, (keys m).Nodup → keys m = keys n → (∀ k, get? k m = get? k n) → m = n
  | [], [], _, _, _ => rfl
  | [], _ :: _, _, hk, _ => by simp [keys] at hk
  | _ :: _, [], _, hk, _ => by simp [keys] at hk
  | (k, v) :: m, (k', v') :: n, hn, hk, hg => by
    rw [keys, List.map_cons, List.nodup_cons] at hn
    obtain ⟨rfl, hks⟩ : k = k' ∧ keys m = keys n := by simpa [keys] using hk
    obtain rfl : v = v' := by simpa [get?] using hg k
    have hg' : ∀ j, get? j m = get? j n := by
      intro j
      by_cases hj : k = j
      · subst hj
        have hm : k ∉ keys m := hn.1
        rw [get?_eq_none hm, get?_eq_none (hks ▸ hm)]
      · simpa [get?, hj] using hg j
    rw [ext_get? hn.2 hks hg']

end Assoc

/-! ## Values of a key -/

namespace MetaValue

/-- What a key holds that held `current`, after the values are given to it one after the other. -/
def given (current : Option MetaValue) (vs : List MetaValue) : Option MetaValue :=
  vs.foldl (fun current v => some (combine current v)) current

theorem given_cons (current : Option MetaValue) (v : MetaValue) (vs : List MetaValue) :
    given current (v :: vs) = given (some (combine current v)) vs := rfl

theorem given_append (current : Option MetaValue) (vs ws : List MetaValue) :
    given current (vs ++ ws) = given (given current vs) ws := List.foldl_append

theorem combine_given (current held : Option MetaValue) {v : MetaValue}
    (h : (∃ t, v = .single t) ∨ ∀ t, held ≠ some (.single t)) :
    combine (given current held.toList) v = combine current (combine held v) := by
  cases v with
  | single t => rfl
  | many new =>
    rcases held with _ | old | old
    · rfl
    · obtain ⟨t, ht⟩ | h := h
      · cases ht
      · exact absurd rfl (h old)
    · rcases current with _ | first | first <;> simp [given, combine]

end MetaValue

namespace Metadata

theorem ext_entries {m n : Metadata} (h : m.entries = n.entries) : m = n := by
  obtain ⟨es, he⟩ := m
  obtain ⟨es', he'⟩ := n
  cases h; rfl

theorem not_mem_keys {m : Metadata} {e : Text × MetaValue} {es : List (Text × MetaValue)}
    (h : (Assoc.keys (m.entries ++ e :: es)).Nodup) : e.1 ∉ m.keys := by
  rw [Assoc.keys_append, List.nodup_append] at h
  exact fun hk => h.2.2 e.1 hk e.1 (List.mem_cons_self ..) rfl

section
variable {m : Metadata} {key : Text} (h : key ∉ m.keys)
include h

theorem give_new (value : MetaValue) : (m.give key value).entries = m.entries ++ [(key, value)] := by
  have hget : m.get? key = none := Assoc.get?_eq_none h
  have hc : MetaValue.combine none value = value := by cases value <;> rfl
  rw [give, hget, hc]
  exact Assoc.insert_of_not_mem value h

theorem append_many (old : List Text) (value : Text) :
    (m.give key (.many old)).append key value = m.give key (.many (old ++ [value])) := by
  apply ext_entries
  rw [give_new h, append, give, get?, give_new h, Assoc.get?_concat _ h]
  show Assoc.insert key _ (m.give key (.many old)).entries = _
  rw [give_new h]
  exact Assoc.insert_concat _ _ h

theorem foldl_append (values : List Text) : ∀ old : List Text,
    values.foldl (fun m v => m.append key v) (m.give key (.many old)) =
      m.give key (.many (old ++ values)) := by
  induction values with
  | nil => intro old; rw [List.append_nil]; rfl
  | cons v values ih =>
    intro old
    rw [List.foldl_cons, append_many h, ih, List.append_assoc]
    rfl

end

theorem foldl_give : ∀ {es : List (Text × MetaValue)} {m : Metadata}, (Assoc.keys (m.entries ++ es)).Nodup →
    (es.foldl (fun m e => m.give e.1 e.2) m).entries = m.entries ++ es
  | [], m, _ => (List.append_nil _).symm
  | e :: es, m, hn => by
    have he := give_new (not_mem_keys hn) e.2
    have hn' : (Assoc.keys ((m.give e.1 e.2).entries ++ es)).Nodup := by rwa [he, List.append_assoc]
    rw [List.foldl_cons, foldl_give hn', he, List.append_assoc]
    rfl

theorem get?_give (m : Metadata) (key j : Text) (value : MetaValue) :
    (m.give key value).get? j = if key = j then some (MetaValue.combine (m.get? key) value) else m.get? j :=
  Assoc.get?_insert ..

theorem get?_foldl_give (k : Text) : ∀ (es : List (Text × MetaValue)) (m : Metadata),
    (es.foldl (fun m e => m.give e.1 e.2) m).get? k = MetaValue.given (m.get? k) (Assoc.values k es)
  | [], m => rfl
  | e :: es, m => by
    rw [List.foldl_cons, get?_foldl_give k es, get?_give]
    by_cases he : e.1 = k
    · subst he
      simp [Assoc.values, MetaValue.given_cons]
    · simp [Assoc.values, he]

theorem keys_give {m : Metadata} {ks : List Text} (h : m.keys = ks.eraseDups) (key : Text) (value : MetaValue) :
    (m.give key value).keys = (ks ++ [key]).eraseDups := by
  by_cases hk : key ∈ m.keys
  · have hks : key ∈ ks := by rwa [h, List.mem_eraseDups] at hk
    rw [eraseDups_concat_of_mem hks, ← h]
    exact Assoc.keys_insert_of_mem _ hk
  · have hks : key ∉ ks := by rwa [h, List.mem_eraseDups] at hk
    rw [eraseDups_concat_of_not_mem hks, ← h, keys, give_new hk, Assoc.keys_append]
    rfl

theorem keys_foldl_give : ∀ (es : List (Text × MetaValue)) {m : Metadata} {ks : List Text},
    m.keys = ks.eraseDups →
      (es.foldl (fun m e => m.give e.1 e.2) m).keys = (ks ++ Assoc.keys es).eraseDups
  | [], m, ks, h => by simpa [Assoc.keys] using h
  | e :: es, m, ks, h => by
    rw [List.foldl_cons, keys_foldl_give es (keys_give h e.1 e.2), List.append_assoc]
    rfl

theorem ext_get? {m n : Metadata} (hk : m.keys = n.keys) (hg : ∀ k, m.get? k = n.get? k) : m = n :=
  ext_entries (Assoc.ext_get? m.nodup hk hg)

theorem empty_merge (m : Metadata) : empty.merge m = m := ext_entries (foldl_give m.nodup)

theorem keys_eq_eraseDups (m : Metadata) : m.keys = m.keys.eraseDups := by
  have hk : (empty.merge m).keys = ([] ++ m.keys).eraseDups := keys_foldl_give m.entries rfl
  rwa [empty_merge, List.nil_append] at hk

theorem keys_merge (m n : Metadata) : (m.merge n).keys = (m.keys ++ n.keys).eraseDups :=
  keys_foldl_give n.entries m.keys_eq_eraseDups

theorem get?_merge (m n : Metadata) (key : Text) :
    (m.merge n).get? key = MetaValue.given (m.get? key) (n.get? key).toList := by
  have hv : Assoc.values key n.entries = (n.get? key).toList := Assoc.values_of_nodup n.nodup
  rw [← hv]
  exact get?_foldl_give key n.entries m

/-- A value may be given before or after merging, unless it makes a list of a single text. -/
theorem merge_give (m : Metadata) {n : Metadata} {key : Text} {v : MetaValue}
    (h : (∃ t, v = .single t) ∨ ∀ t, n.get? key ≠ some (.single t)) :
    (m.merge n).give key v = m.merge (n.give key v) := by
  apply ext_get?
  · rw [keys_give (keys_merge m n), keys_merge, keys_give n.keys_eq_eraseDups, List.append_assoc]
    exact eraseDups_append_congr rfl (eraseDups_eraseDups _).symm
  · intro k
    rw [get?_give, get?_merge, get?_merge, get?_merge, get?_give]
    by_cases hk : key = k
    · subst hk
      rw [if_pos rfl, if_pos rfl, MetaValue.combine_given _ _ h]
      rfl
    · rw [if_neg hk, if_neg hk]

end Metadata

theorem Pattern.merge_singleton (p : Pattern) : merge [p] = [p] := by
  show [({ name := p.name } : Pattern).join p] = [p]
  have hm : ({} : Metadata).merge p.metadata = p.metadata := Metadata.empty_merge p.metadata
  simp [join, hm]

end PatternBook
