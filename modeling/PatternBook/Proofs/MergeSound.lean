import PatternBook.Proofs.MetadataLemmas
import PatternBook.Proofs.Render

/-!
# Merging is by name

The patterns of all names are merged in one pass, but those of one name never see the others: the merged
pattern of a name is the union of the patterns of that name, as if they stood alone.
-/

namespace PatternBook

namespace Pattern

/-! ## The union of a group -/

/-- The pattern says what the patterns of the group say, in their order. -/
structure IsUnion (group : List Pattern) (p : Pattern) : Prop where
  description : p.description = ((group.map Pattern.description).find? fun d => !d.isEmpty).getD []
  parameters : p.parameters = group.flatMap Pattern.parameters
  examples : p.examples = group.flatMap Pattern.examples
  keys : p.metadata.keys = (group.flatMap fun q => q.metadata.keys).eraseDups
  values : ∀ key, p.metadata.get? key = MetaValue.given none (group.filterMap fun q => q.metadata.get? key)

theorem isUnion_nil (name : Text) : IsUnion [] { name := name } where
  description := rfl
  parameters := rfl
  examples := rfl
  keys := rfl
  values := fun _ => rfl

section
variable {group : List Pattern} {p : Pattern} (h : IsUnion group p) (q : Pattern)
include h

theorem description_join : (p.join q).description =
    (((group ++ [q]).map Pattern.description).find? fun d => !d.isEmpty).getD [] := by
  have hd := h.description
  simp only [join, List.map_append, List.find?_append]
  cases hf : (group.map Pattern.description).find? fun d => !d.isEmpty with
  | none =>
    rw [hf] at hd
    cases hq : q.description <;> simp [hd, hq]
  | some d =>
    have hne : d.isEmpty = false := by simpa using List.find?_some hf
    rw [hf] at hd
    simp_all

theorem keys_join : (p.join q).metadata.keys = ((group ++ [q]).flatMap fun r => r.metadata.keys).eraseDups := by
  rw [List.flatMap_append, List.flatMap_singleton]
  exact Metadata.keys_foldl_give q.metadata.entries h.keys

theorem values_join (key : Text) : (p.join q).metadata.get? key =
    MetaValue.given none ((group ++ [q]).filterMap fun r => r.metadata.get? key) := by
  have hq : [q].filterMap (fun r => r.metadata.get? key) = (q.metadata.get? key).toList := by
    cases hg : q.metadata.get? key <;> simp [hg]
  rw [List.filterMap_append, MetaValue.given_append, ← h.values, hq]
  exact Metadata.get?_merge p.metadata q.metadata key

/-- **One step.** A union that takes up a pattern is the union of the group with that pattern. -/
theorem isUnion_join : IsUnion (group ++ [q]) (p.join q) where
  description := description_join h q
  parameters := by simp [join, h.parameters]
  examples := by simp [join, h.examples]
  keys := keys_join h q
  values := values_join h q

end

/-! ## The merged patterns -/

def named (name : Text) (ps : List Pattern) : List Pattern := ps.filter fun p => p.name = name

theorem named_concat_of_eq {name : Text} {p : Pattern} (h : p.name = name) (ps : List Pattern) :
    named name (ps ++ [p]) = named name ps ++ [p] := by
  simp [named, h]

theorem named_concat_of_ne {name : Text} {p : Pattern} (h : p.name ≠ name) (ps : List Pattern) :
    named name (ps ++ [p]) = named name ps := by
  simp [named, h]

theorem gather_nil (p : Pattern) : gather [] p = [p] := merge_singleton p

theorem gather_cons (q : Pattern) (merged : List Pattern) (p : Pattern) : gather (q :: merged) p =
    if q.name = p.name then q.join p :: merged else q :: gather merged p := rfl

theorem names_gather_of_mem {p : Pattern} : ∀ {merged : List Pattern}, p.name ∈ merged.map name →
    (gather merged p).map name = merged.map name
  | q :: merged, h => by
    rw [gather_cons]
    by_cases hq : q.name = p.name
    · rw [if_pos hq]; rfl
    · have hm : p.name ∈ merged.map name := by
        rw [List.map_cons, List.mem_cons] at h
        exact h.resolve_left (Ne.symm hq)
      rw [if_neg hq, List.map_cons, List.map_cons, names_gather_of_mem hm]

theorem names_gather_of_not_mem {p : Pattern} : ∀ {merged : List Pattern}, p.name ∉ merged.map name →
    (gather merged p).map name = merged.map name ++ [p.name]
  | [], _ => rfl
  | q :: merged, h => by
    rw [List.map_cons, List.mem_cons, not_or] at h
    rw [gather_cons, if_neg (Ne.symm h.1), List.map_cons, names_gather_of_not_mem h.2]
    rfl

/-- The patterns are the unions of the groups by name: one for each name, in the order of first mention. -/
structure Merged (ps merged : List Pattern) : Prop where
  names : merged.map name = (ps.map name).eraseDups
  nodup : (merged.map name).Nodup
  unions : ∀ p ∈ merged, IsUnion (named p.name ps) p

theorem isUnion_gather {ps : List Pattern} {p : Pattern} : ∀ {merged : List Pattern},
    (merged.map name).Nodup → (∀ q ∈ merged, IsUnion (named q.name ps) q) →
    (p.name ∉ merged.map name → named p.name ps = []) →
      ∀ q ∈ gather merged p, IsUnion (named q.name (ps ++ [p])) q
  | [], _, _, hnew, q, hq => by
    obtain rfl := List.mem_singleton.mp hq
    have hp : named p.name (ps ++ [p]) = [] ++ [p] := by rw [named_concat_of_eq rfl, hnew (by simp)]
    show IsUnion (named p.name (ps ++ [p])) _
    rw [hp]
    exact isUnion_join (isUnion_nil p.name) p
  | r :: merged, hn, hu, hnew, q, hq => by
    rw [List.map_cons, List.nodup_cons] at hn
    rw [List.forall_mem_cons] at hu
    rw [gather_cons] at hq
    by_cases hr : r.name = p.name
    · rw [if_pos hr, List.mem_cons] at hq
      rcases hq with rfl | hq
      · show IsUnion (named r.name (ps ++ [p])) _
        rw [named_concat_of_eq hr.symm]
        exact isUnion_join hu.1 p
      · -- no other pattern has the name
        have hne : p.name ≠ q.name := by
          rw [← hr]
          intro he
          exact hn.1 (he ▸ List.mem_map_of_mem hq)
        rw [named_concat_of_ne hne]
        exact hu.2 q hq
    · rw [if_neg hr, List.mem_cons] at hq
      rcases hq with rfl | hq
      · rw [named_concat_of_ne (Ne.symm hr)]
        exact hu.1
      · refine isUnion_gather hn.2 hu.2 (fun hm => hnew ?_) q hq
        rw [List.map_cons, List.mem_cons, not_or]
        exact ⟨Ne.symm hr, hm⟩

theorem merged_gather {ps merged : List Pattern} (h : Merged ps merged) (p : Pattern) :
    Merged (ps ++ [p]) (gather merged p) := by
  have hunions := isUnion_gather (p := p) h.nodup h.unions fun hm => by
    rw [h.names, List.mem_eraseDups] at hm
    refine List.filter_eq_nil_iff.mpr fun q hq hn => hm ?_
    rw [← of_decide_eq_true hn]
    exact List.mem_map_of_mem hq
  by_cases hm : p.name ∈ merged.map name
  · have hp : p.name ∈ ps.map name := by rwa [h.names, List.mem_eraseDups] at hm
    have hg := names_gather_of_mem hm
    refine ⟨?_, hg ▸ h.nodup, hunions⟩
    rw [hg, List.map_append, List.map_singleton, eraseDups_concat_of_mem hp, h.names]
  · have hp : p.name ∉ ps.map name := by rwa [h.names, List.mem_eraseDups] at hm
    have hg := names_gather_of_not_mem hm
    refine ⟨?_, ?_, hunions⟩
    · rw [hg, List.map_append, List.map_singleton, eraseDups_concat_of_not_mem hp, h.names]
    · rw [hg]
      refine List.nodup_append.mpr ⟨h.nodup, by simp, fun a ha b hb hab => hm ?_⟩
      rwa [← List.mem_singleton.mp hb, ← hab]

theorem merged_foldl_gather : ∀ (qs : List Pattern) {ps merged : List Pattern}, Merged ps merged →
    Merged (ps ++ qs) (qs.foldl gather merged)
  | [], ps, merged, h => by rwa [List.append_nil]
  | q :: qs, ps, merged, h => by
    have ih := merged_foldl_gather qs (merged_gather h q)
    rwa [List.append_assoc] at ih

theorem merged_nil : Merged [] [] := ⟨rfl, List.nodup_nil, by simp⟩

theorem merged_merge (ps : List Pattern) : Merged ps (merge ps) := merged_foldl_gather ps merged_nil

theorem merge_same_name {ps : List Pattern} {name : Text} (hne : ps ≠ []) (hn : ∀ p ∈ ps, p.name = name) :
    ∃ p, merge ps = [p] ∧ IsUnion ps p := by
  have h := merged_merge ps
  have hnames : (merge ps).map Pattern.name = [name] := by
    rw [h.names]
    exact eraseDups_of_forall_eq (by simpa using hne) (by simpa using hn)
  obtain ⟨p, hp, hpn⟩ := List.map_eq_singleton_iff.mp hnames
  have hgroup : named p.name ps = ps := by
    refine List.filter_eq_self.mpr fun q hq => ?_
    simp [hn q hq, hpn]
  have hu := h.unions p (by simp [hp])
  rw [hgroup] at hu
  exact ⟨p, hp, hu⟩

/-- **Merging is by name.** There is one pattern for each name, in the order of first mention, and it is the
union of the patterns of that name. -/
theorem merge_by_name (ps : List Pattern) :
    (merge ps).map name = (ps.map name).eraseDups ∧ ((merge ps).map name).Nodup ∧
      ∀ p ∈ merge ps, IsUnion (ps.filter fun q => q.name = p.name) p := by
  have h := merged_foldl_gather ps merged_nil
  exact ⟨h.names, h.nodup, h.unions⟩

def interleaved : List Pattern :=
  [({ name := "Grid".toList, metadata := .empty } : Pattern).appendMeta "todo".toList "size".toList,
    { name := "Tile".toList, description := "A cell.".toList, metadata := .empty },
    (({ name := "Grid".toList, description := "Cells.".toList, metadata := .empty } : Pattern).setMeta
      "status".toList "draft".toList).appendMeta "todo".toList "gaps".toList]

theorem merge_by_name_interleaved : ∃ p ∈ merge interleaved, p.name = "Grid".toList ∧
    IsUnion (interleaved.filter fun q => q.name = p.name) p := by
  have h : ∃ p ∈ merge interleaved, p.name = "Grid".toList := by decide
  obtain ⟨p, hp, hn⟩ := h
  exact ⟨p, hp, hn, (merge_by_name interleaved).2.2 p hp⟩

end Pattern

end PatternBook
