import PatternBook.Pattern.Export
import PatternBook.Proofs.JsonSound

/-!
# Patterns are known by their JSON

Nothing of a pattern is lost as JSON: a default that is absent is null and not empty, a single text is not a
list of one, and the fields stand in a fixed order. As every layout of the array reads back, the text of
some patterns is the text of no others.
-/

namespace PatternBook

/-! ## What is exported is plain -/

@[simp] theorem Json.plain_ofOption (o : Option Text) : (Json.ofOption o).Plain := by
  cases o with
  | none => exact .null
  | some s => exact .text s

@[simp] theorem Parameter.plain_toJson (p : Parameter) : p.toJson.Plain := by
  simp [toJson, Assoc.keys]

@[simp] theorem CodeBlock.plain_toJson (b : CodeBlock) : b.toJson.Plain := by
  simp [toJson, Assoc.keys]

@[simp] theorem Example.plain_toJson (e : Example) : e.toJson.Plain := by
  simp [toJson, Assoc.keys]

@[simp] theorem MetaValue.plain_toJson (m : MetaValue) : m.toJson.Plain := by
  cases m <;> simp [toJson]

@[simp] theorem Metadata.plain_toJson (m : Metadata) : m.toJson.Plain := by
  have hk := m.nodup
  simp only [toJson, Json.plain_object_iff, List.forall_mem_map]
  refine ⟨?_, fun e _ => e.2.plain_toJson⟩
  simpa [Assoc.keys, Function.comp_def] using hk

@[simp] theorem Pattern.plain_toJson (p : Pattern) : p.toJson.Plain := by
  simp [toJson, Assoc.keys]

/-! ## What is exported is known -/

theorem Json.ofOption_injective : Function.Injective Json.ofOption := by
  rintro (_ | s) (_ | t) h
  · rfl
  · simp [Json.ofOption] at h
  · simp [Json.ofOption] at h
  · simpa [Json.ofOption] using h

theorem Parameter.toJson_injective : Function.Injective Parameter.toJson := by
  rintro ⟨⟩ ⟨⟩ h
  simpa [toJson, Json.ofOption_injective.eq_iff] using h

theorem CodeBlock.toJson_injective : Function.Injective CodeBlock.toJson := by
  rintro ⟨⟩ ⟨⟩ h
  simpa [toJson, Json.ofOption_injective.eq_iff, and_comm] using h

theorem Example.toJson_injective : Function.Injective Example.toJson := by
  rintro ⟨⟩ ⟨⟩ h
  simpa [toJson, (List.map_injective_iff.mpr CodeBlock.toJson_injective).eq_iff] using h

theorem MetaValue.toJson_injective : Function.Injective MetaValue.toJson := by
  have ht : Function.Injective Json.text := fun _ _ => Json.text.inj
  rintro (s | ss) (t | ts) h
  · simpa [toJson] using h
  · simp [toJson] at h
  · simp [toJson] at h
  · simpa [toJson, (List.map_injective_iff.mpr ht).eq_iff] using h

theorem Metadata.toJson_injective : Function.Injective Metadata.toJson := by
  have he : Function.Injective fun e : Text × MetaValue => (e.1, e.2.toJson) := by
    rintro ⟨⟩ ⟨⟩ h
    simpa [MetaValue.toJson_injective.eq_iff] using h
  rintro ⟨⟩ ⟨⟩ h
  simpa [toJson, (List.map_injective_iff.mpr he).eq_iff] using h

theorem Pattern.toJson_injective : Function.Injective Pattern.toJson := by
  rintro ⟨⟩ ⟨⟩ h
  simpa [toJson, (List.map_injective_iff.mpr Parameter.toJson_injective).eq_iff,
    (List.map_injective_iff.mpr Example.toJson_injective).eq_iff, Metadata.toJson_injective.eq_iff] using h

namespace Pattern

theorem read?_renderJson (indent : Option Nat) (ps : List Pattern) :
    Json.read? (renderJson indent ps) = some (.array (ps.map toJson)) :=
  Json.read?_render (by simp) indent

/-- **The text says what the patterns are.** It reads back as their array, in every layout, and no other patterns
have it in any layout. -/
theorem renderJson_faithful (ps qs : List Pattern) :
    (∀ indent, Json.read? (renderJson indent ps) = some (.array (ps.map toJson))) ∧
      ((∃ i j, renderJson i ps = renderJson j qs) ↔ ps = qs) := by
  refine ⟨fun indent => read?_renderJson indent ps, ?_, ?_⟩
  · rintro ⟨i, j, h⟩
    have hr := read?_renderJson i ps
    rw [h, read?_renderJson j qs, Option.some.injEq, Json.array.injEq] at hr
    exact List.map_injective_iff.mpr toJson_injective hr.symm
  · rintro rfl
    exact ⟨none, none, rfl⟩

end Pattern

end PatternBook
