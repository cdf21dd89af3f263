/-!
# Association lists

Keys stand in the order in which they were first given. Giving a key again replaces its value and
keeps its place, so no operation ever repeats a key.
-/

namespace PatternBook.Assoc

variable {κ α : Type} [DecidableEq κ]

def keys (m : List (κ × α)) : List κ := m.map Prod.fst

def get? (k : κ) : List (κ × α) → Option α
  | [] => none
  | (k', v) :: m => if k' = k then some v else get? k m

def insert (k : κ) (v : α) : List (κ × α) → List (κ × α)
  | [] => [(k, v)]
  | (k', v') :: m => if k' = k then (k', v) :: m else (k', v') :: insert k v m

def ofList (pairs : List (κ × α)) : List (κ × α) :=
  pairs.foldl (fun m p => insert p.1 p.2 m) []

theorem mem_keys_insert {k k' : κ} {v : α} {m : List (κ × α)} (h : k' ∈ keys (insert k v m)) :
    k' = k ∨ k' ∈ keys m := by
  induction m with
  | nil => simp_all [insert, keys]
  | cons p m ih =>
    obtain ⟨j, w⟩ := p
    by_cases hj : j = k
    · simp_all [insert, keys]
    · simp only [insert, hj, if_false, keys, List.map_cons, List.mem_cons] at h ⊢
      rcases h with h | h
      · exact .inr (.inl h)
      · rcases ih h with h | h
        · exact .inl h
        · exact .inr (.inr h)

theorem nodup_insert {k : κ} {v : α} {m : List (κ × α)} (h : (keys m).Nodup) :
    (keys (insert k v m)).Nodup := by
  induction m with
  | nil => simp [insert, keys]
  | cons p m ih =>
    obtain ⟨j, w⟩ := p
    simp only [keys, List.map_cons, List.nodup_cons] at h
    by_cases hj : j = k
    · simp only [insert, hj, if_true, keys, List.map_cons, List.nodup_cons]
      exact hj ▸ h
    · simp only [insert, hj, if_false, keys, List.map_cons, List.nodup_cons]
      refine ⟨fun hm => ?_, ih h.2⟩
      rcases mem_keys_insert hm with e | e
      · exact hj e
      · exact h.1 e

end PatternBook.Assoc
