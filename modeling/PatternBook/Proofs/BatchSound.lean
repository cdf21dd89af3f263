import PatternBook.Catalogue
import PatternBook.Proofs.NormalSound

/-!
# Merging in batches

Merging what is already merged changes nothing, so patterns may be added to it later. That they may be merged on
their own before is not true of all patterns: a single text replaces what is there, but not if a list has taken it
up before. It is true if no key holds a text in one pattern and a list in another, as in the patterns that are
read from files, where the key says which it is.
-/

namespace PatternBook

namespace Pattern

/-! ## What is already merged -/

theorem gather_of_not_mem {p : Pattern} : ∀ {merged : List Pattern}, p.name ∉ merged.map name →
    gather merged p = merged ++ [p]
  | [], _ => gather_nil p
  | q :: merged, h => by
    rw [List.map_cons, List.mem_cons, not_or] at h
    rw [gather_cons, if_neg (Ne.symm h.1), gather_of_not_mem h.2]
    rfl

theorem foldl_gather_of_nodup : ∀ {ps merged : List Pattern}, ((merged ++ ps).map name).Nodup →
    ps.foldl gather merged = merged ++ ps
  | [], merged, _ => (List.append_nil merged).symm
  | p :: ps, merged, h => by
    have hp : p.name ∉ merged.map name := by
      rw [List.map_append, List.nodup_append] at h
      exact fun hm => h.2.2 p.name hm p.name (List.mem_cons_self ..) rfl
    rw [List.append_cons] at h
    rw [List.foldl_cons, gather_of_not_mem hp, foldl_gather_of_nodup h, List.append_assoc]
    rfl

theorem merge_merge (ps : List Pattern) : merge (merge ps) = merge ps :=
  foldl_gather_of_nodup (merged_merge ps).nodup

theorem merge_append (ps qs : List Pattern) : merge (ps ++ qs) = qs.foldl gather (merge ps) := List.foldl_append

/-- **Merged patterns can be extended** as if they had not been merged before. -/
theorem merge_merge_append (ps qs : List Pattern) :
    merge (merge ps ++ qs) = merge (ps ++ qs) ∧ merge (merge ps) = merge ps := by
  refine ⟨?_, merge_merge ps⟩
  rw [merge_append, merge_append, merge_merge]

end Pattern

/-! ## Joining in another order -/

namespace Metadata

/-- No list is given to a key that holds a single text. -/
def Agrees (m n : Metadata) : Prop := ∀ key vs t, n.get? key = some (.many vs) → m.get? key ≠ some (.single t)

theorem merge_assoc (m : Metadata) {n o : Metadata} (h : n.Agrees o) :
    (m.merge n).merge o = m.merge (n.merge o) := by
  apply ext_get?
  · rw [keys_merge, keys_merge, keys_merge, keys_merge]
    calc ((m.keys ++ n.keys).eraseDups ++ o.keys).eraseDups
      _ = (m.keys ++ n.keys ++ o.keys).eraseDups := eraseDups_append_congr (eraseDups_eraseDups _) rfl
      _ = (m.keys ++ (n.keys ++ o.keys)).eraseDups := by rw [List.append_assoc]
      _ = (m.keys ++ (n.keys ++ o.keys).eraseDups).eraseDups :=
        eraseDups_append_congr rfl (eraseDups_eraseDups _).symm
  · intro key
    rw [get?_merge, get?_merge, get?_merge, get?_merge]
    cases ho : o.get? key with
    | none => rfl
    | some v =>
      refine congrArg some (MetaValue.combine_given (m.get? key) (n.get? key) ?_)
      cases v with
      | single t => exact .inl ⟨t, rfl⟩
      | many vs => exact .inr fun t => h key vs t ho

theorem Normal.agrees {s : Settings} (htodo : ['t', 'o', 'd', 'o'] ∈ s.accumulating) {m n : Metadata}
    (hm : m.Normal s) (hn : n.Normal s) : m.Agrees n := by
  intro key vs t hvs ht
  -- the key that holds the text does not collect, and the one that holds the list does
  have hkey : key ∉ s.accumulating := (hm _ (Assoc.mem_of_get? ht)).2.1
  rcases (hn _ (Assoc.mem_of_get? hvs)).2.1 with hk | rfl
  · exact hkey hk
  · exact hkey htodo

end Metadata

namespace Pattern

theorem join_assoc (p : Pattern) {q r : Pattern} (h : q.metadata.Agrees r.metadata) :
    (p.join q).join r = p.join (q.join r) := by
  unfold join
  dsimp only
  rw [Metadata.merge_assoc _ h, List.append_assoc, List.append_assoc]
  cases p.description <;> rfl

theorem gather_join {q r : Pattern} (hname : q.name = r.name) (h : q.metadata.Agrees r.metadata) :
    ∀ merged : List Pattern, gather merged (q.join r) = gather (gather merged q) r
  | [] => by rw [gather_nil, gather_nil, gather_cons, if_pos hname]
  | p :: merged => by
    have hj : (q.join r).name = q.name := rfl
    rw [gather_cons, gather_cons, hj]
    by_cases hp : p.name = q.name
    · have hpj : (p.join q).name = r.name := hp.trans hname
      rw [if_pos hp, if_pos hp, gather_cons, if_pos hpj, join_assoc p h]
    · rw [if_neg hp, if_neg hp, gather_cons, if_neg (hname ▸ hp), gather_join hname h merged]

/-- A pattern whose name is there already can be taken up before one of another name or after it. -/
theorem gather_comm {p q : Pattern} (hne : p.name ≠ q.name) : ∀ {merged : List Pattern}, p.name ∈ merged.map name →
    gather (gather merged p) q = gather (gather merged q) p
  | r :: merged, h => by
    rw [gather_cons, gather_cons]
    by_cases hp : r.name = p.name
    · have hq : r.name ≠ q.name := hp ▸ hne
      have hj : (r.join p).name ≠ q.name := hq
      rw [if_pos hp, if_neg hq, gather_cons, gather_cons, if_neg hj, if_pos hp]
    · have hm : p.name ∈ merged.map name := by
        rw [List.map_cons, List.mem_cons] at h
        exact h.resolve_left (Ne.symm hp)
      rw [if_neg hp]
      by_cases hq : r.name = q.name
      · have hj : (r.join q).name ≠ p.name := hp
        rw [if_pos hq, gather_cons, gather_cons, if_pos hq, if_neg hj]
      · rw [if_neg hq, gather_cons, gather_cons, if_neg hp, if_neg hq, gather_comm hne hm]

theorem mem_names_gather {n : Text} {merged : List Pattern} {p : Pattern} :
    n ∈ (gather merged p).map name ↔ n ∈ merged.map name ∨ n = p.name := by
  by_cases hp : p.name ∈ merged.map name
  · rw [names_gather_of_mem hp]
    refine (or_iff_left_of_imp ?_).symm
    rintro rfl
    exact hp
  · rw [names_gather_of_not_mem hp, List.mem_append, List.mem_singleton]

theorem foldl_gather_comm {p : Pattern} : ∀ {ps merged : List Pattern}, p.name ∉ ps.map name →
    p.name ∈ merged.map name → ps.foldl gather (gather merged p) = gather (ps.foldl gather merged) p
  | [], _, _, _ => rfl
  | q :: ps, merged, hps, hm => by
    rw [List.map_cons, List.mem_cons, not_or] at hps
    have hm' : p.name ∈ (gather merged q).map name := mem_names_gather.mpr (.inl hm)
    rw [List.foldl_cons, List.foldl_cons, gather_comm hps.1 hm, foldl_gather_comm hps.2 hm']

theorem foldl_gather_gather {p : Pattern} : ∀ {ps : List Pattern}, (ps.map name).Nodup →
    (∀ q ∈ ps, q.metadata.Agrees p.metadata) → ∀ merged : List Pattern,
      (gather ps p).foldl gather merged = gather (ps.foldl gather merged) p
  | [], _, _, merged => by
    rw [gather_nil]
    rfl
  | q :: ps, hn, hk, merged => by
    rw [List.map_cons, List.nodup_cons] at hn
    rw [List.forall_mem_cons] at hk
    rw [gather_cons]
    by_cases hq : q.name = p.name
    · -- joined to its namesake first, the pattern then changes places with all the others
      have hm : p.name ∈ (gather merged q).map name := mem_names_gather.mpr (.inr hq.symm)
      rw [if_pos hq, List.foldl_cons, gather_join hq hk.1, List.foldl_cons, foldl_gather_comm (hq ▸ hn.1) hm]
    · rw [if_neg hq, List.foldl_cons, List.foldl_cons, foldl_gather_gather hn.2 hk.2]

section
variable {s : Settings} (htodo : ['t', 'o', 'd', 'o'] ∈ s.accumulating) {qs : List Pattern}
  (hqs : ∀ q ∈ qs, q.Normal s)
include htodo hqs

theorem foldl_gather_merge (merged : List Pattern) : (merge qs).foldl gather merged = qs.foldl gather merged := by
  induction qs using List.reverseRecOn with
  | nil => rfl
  | append_singleton qs q ih =>
    rw [List.forall_mem_append, List.forall_mem_singleton] at hqs
    have hn := (merged_merge qs).nodup
    have hk : ∀ r ∈ merge qs, r.metadata.Agrees q.metadata := fun r hr =>
      (normal_merge hqs.1 r hr).metadata.agrees htodo hqs.2.metadata
    rw [merge_append, List.foldl_append, ← ih hqs.1]
    exact foldl_gather_gather hn hk merged

theorem merge_append_merge (ps : List Pattern) : merge (ps ++ merge qs) = merge (ps ++ qs) := by
  rw [merge_append, merge_append, foldl_gather_merge htodo hqs]

end

-- without a key that tells: the text replaces the list, unless the second list has taken it up before
example :
    let held := fresh.appendMeta ['k'] ['a']
    let later := [fresh.setMeta ['k'] ['b'], fresh.appendMeta ['k'] ['c']]
    (merge (held :: later)).map (fun p => p.metadata.entries) = [[(['k'], .many [['b'], ['c']])]] ∧
      (merge (held :: merge later)).map (fun p => p.metadata.entries) =
        [[(['k'], .many [['a'], ['b'], ['c']])]] := by
  decide

end Pattern

/-! ## Files -/

theorem Run.outcome_of_mapError_ok {ε ε' α : Type} {x : Run ε α} {f : ε → ε'} {a : α}
    (h : (x.mapError f).outcome = .ok a) : x.outcome = .ok a := by
  obtain ⟨notices, outcome⟩ := x
  cases outcome with
  | error e => cases h
  | ok b =>
    cases h
    rfl

namespace Catalogue

section
variable {codecs : Codecs} {s : Settings} {d : Disk}

theorem normal_partialsOfFile {path : Path} {ps : List Pattern}
    (h : (partialsOfFile codecs s d path).outcome = .ok ps) : ∀ p ∈ ps, p.Normal s := by
  obtain ⟨text, -, h⟩ := Run.of_outcome_bind_ok h
  obtain ⟨qs, hqs, h⟩ := Run.of_outcome_bind_ok h
  cases h
  exact Source.normal_partialsOf (Run.outcome_of_mapError_ok hqs)

theorem normal_partials {paths : List Path} {ps : List Pattern}
    (h : (partials codecs s d paths).outcome = .ok ps) : ∀ p ∈ ps, p.Normal s := by
  induction paths generalizing ps with
  | nil =>
    cases h
    exact nofun
  | cons path paths ih =>
    obtain ⟨qs, hqs, h⟩ := Run.of_outcome_bind_ok h
    obtain ⟨rs, hrs, h⟩ := Run.of_outcome_bind_ok h
    cases h
    exact List.forall_mem_append.mpr ⟨normal_partialsOfFile hqs, ih hrs⟩

theorem partials_append (paths more : List Path) :
    partials codecs s d (paths ++ more) = do
      let ps ← partials codecs s d paths
      let qs ← partials codecs s d more
      return ps ++ qs := by
  induction paths with
  | nil => simp [partials, Run.done_bind]
  | cons path paths ih => simp only [List.cons_append, partials, ih, bind_assoc, pure_bind, List.append_assoc]

end

/-- **Files may be read in batches.** What two batches give, merged, is what they give in one, with the same notices
and the same fault if there is one; and if the one batch is read, so is each of the two. -/
theorem patterns_append (codecs : Codecs) (s : Settings) (htodo : ['t', 'o', 'd', 'o'] ∈ s.accumulating) (d : Disk)
    (paths more : List Path) :
    (do
      let ps ← patterns codecs s d paths
      let qs ← patterns codecs s d more
      return Pattern.merge (ps ++ qs)) = patterns codecs s d (paths ++ more) ∧
    ∀ merged, (patterns codecs s d (paths ++ more)).outcome = .ok merged →
      ∃ ps qs, (patterns codecs s d paths).outcome = .ok ps ∧ (patterns codecs s d more).outcome = .ok qs ∧
        Pattern.merge (ps ++ qs) = merged := by
  have heq : (do
      let ps ← patterns codecs s d paths
      let qs ← patterns codecs s d more
      return Pattern.merge (ps ++ qs)) = patterns codecs s d (paths ++ more) := by
    simp only [patterns, partials_append, bind_assoc, pure_bind]
    refine Run.bind_congr_of_ok fun ps _ => Run.bind_congr_of_ok fun qs hqs => ?_
    rw [Pattern.merge_append_merge htodo (normal_partials hqs), Pattern.merge_append, Pattern.merge_merge,
      ← Pattern.merge_append]
  refine ⟨heq, fun merged h => ?_⟩
  rw [← heq] at h
  obtain ⟨ps, hps, h⟩ := Run.of_outcome_bind_ok h
  obtain ⟨qs, hqs, h⟩ := Run.of_outcome_bind_ok h
  cases h
  exact ⟨ps, qs, hps, hqs, rfl⟩

def bytesOf (text : String) : Bytes := text.toList.map fun c => c.toNat.toUInt8

def twoFiles : Disk where
  find p :=
    if p = .ofText ['a'] then .ok (.file (bytesOf "/*@pattern x\n@todo b\n@meta k c*/"))
    else if p = .ofText ['d'] then .ok (.file (bytesOf "/*@pattern x\n@meta k e\n@todo f*/"))
    else .error .missing

theorem patterns_append_twoFiles : ∃ ps qs merged,
    (patterns .standard {} twoFiles [.ofText ['a']]).outcome = .ok ps ∧
    (patterns .standard {} twoFiles [.ofText ['d']]).outcome = .ok qs ∧
    (patterns .standard {} twoFiles [.ofText ['a'], .ofText ['d']]).outcome = .ok merged ∧
    Pattern.merge (ps ++ qs) = merged ∧
    merged.map (fun p => p.metadata.entries) =
      [[(['t', 'o', 'd', 'o'], .many [['b'], ['f']]), (['k'], .single ['e'])]] := by
  have hok : (patterns .standard {} twoFiles [.ofText ['a'], .ofText ['d']]).outcome.toOption.map
      (List.map fun p => p.metadata.entries) =
        some [[(['t', 'o', 'd', 'o'], .many [['b'], ['f']]), (['k'], .single ['e'])]] := by decide +kernel
  cases h : (patterns .standard {} twoFiles [.ofText ['a'], .ofText ['d']]).outcome with
  | error e => rw [h] at hok; cases hok
  | ok merged =>
    rw [h] at hok
    obtain ⟨ps, qs, hps, hqs, hm⟩ :=
      (patterns_append .standard {} (by decide) twoFiles [.ofText ['a']] [.ofText ['d']]).2 merged h
    exact ⟨ps, qs, merged, hps, hqs, rfl, hm, Option.some.inj hok⟩

end Catalogue

end PatternBook
