import PatternBook.Proofs.ScanSound

/-!
# Strict and lenient readings

A malformed declaration ends a strict reading and is passed over in a lenient one, with a warning. Up to the first
warning the two readings do the same, so the strict reading is the lenient one, halted there. Halting a sequence
of runs is halting each of them, so this has to be seen for one entry only.
-/

namespace PatternBook

theorem Notice.eq_skippedParameter {n : Notice} (h : n.importance = .warning) :
    ∃ cause, n = .skippedParameter cause := by
  cases n with
  | skippedParameter cause => exact ⟨cause, rfl⟩
  | ignoredMetadata pattern => cases h
  | outsidePattern field => cases h
  | parsedFile patterns path => cases h

/-! ## Halting at a warning -/

namespace Run

variable {α β : Type}

/-- The run with these notices and this outcome, ended by the first warning with the error that it is about. -/
def haltedFrom (outcome : Except ParseError α) : List Notice → Run ParseError α
  | [] => ⟨[], outcome⟩
  | .skippedParameter cause :: _ => .fail (.parameter cause)
  | n :: notices => (haltedFrom outcome notices).after [n]

def halted (x : Run ParseError α) : Run ParseError α := haltedFrom x.outcome x.notices

theorem haltedFrom_cons (outcome : Except ParseError α) {n : Notice} (h : n.importance ≠ .warning)
    (notices : List Notice) : haltedFrom outcome (n :: notices) = (haltedFrom outcome notices).after [n] := by
  cases n with
  | skippedParameter cause => exact absurd rfl h
  | ignoredMetadata pattern => rfl
  | outsidePattern field => rfl
  | parsedFile patterns path => rfl

theorem haltedFrom_error (e : ParseError) (f : α → Run ParseError β) (notices : List Notice) :
    haltedFrom (.error e) notices = haltedFrom (.error e) notices >>= f := by
  induction notices with
  | nil => rfl
  | cons n notices ih =>
    by_cases hn : n.importance = .warning
    · obtain ⟨cause, rfl⟩ := Notice.eq_skippedParameter hn
      rfl
    · rw [haltedFrom_cons _ hn, haltedFrom_cons _ hn, after_bind, ← ih]

theorem haltedFrom_append (a : α) (f : α → Run ParseError β) (notices : List Notice) :
    haltedFrom (f a).outcome (notices ++ (f a).notices) = haltedFrom (.ok a) notices >>= fun a => (f a).halted := by
  induction notices with
  | nil => exact (done_andThen a fun a => (f a).halted).symm
  | cons n notices ih =>
    by_cases hn : n.importance = .warning
    · obtain ⟨cause, rfl⟩ := Notice.eq_skippedParameter hn
      rfl
    · rw [List.cons_append, haltedFrom_cons _ hn, haltedFrom_cons _ hn, after_bind, ih]

theorem halted_bind (x : Run ParseError α) (f : α → Run ParseError β) :
    (x >>= f).halted = x.halted >>= fun a => (f a).halted := by
  obtain ⟨notices, outcome⟩ := x
  cases outcome with
  | error e => exact haltedFrom_error e _ notices
  | ok a => exact haltedFrom_append a f notices

theorem halted_of_no_warning {x : Run ParseError α} (h : ∀ n ∈ x.notices, n.importance ≠ .warning) :
    x.halted = x := by
  obtain ⟨notices, outcome⟩ := x
  induction notices with
  | nil => rfl
  | cons n notices ih =>
    rw [List.forall_mem_cons] at h
    exact (haltedFrom_cons outcome h.1 notices).trans (congrArg (after · [n]) (ih h.2))

theorem halted_of_warning {x : Run ParseError α} (h : ∃ n ∈ x.notices, n.importance = .warning) :
    ∃ before cause after, x.notices = before ++ .skippedParameter cause :: after ∧
      (∀ n ∈ before, n.importance ≠ .warning) ∧ x.halted = ⟨before, .error (.parameter cause)⟩ := by
  obtain ⟨notices, outcome⟩ := x
  induction notices with
  | nil => simp at h
  | cons n notices ih =>
    by_cases hn : n.importance = .warning
    · obtain ⟨cause, rfl⟩ := Notice.eq_skippedParameter hn
      exact ⟨[], cause, notices, rfl, by simp, rfl⟩
    · have h' : ∃ m ∈ notices, m.importance = .warning := by simpa [hn] using h
      obtain ⟨before, cause, after, hsplit, hb, hx⟩ := ih h'
      refine ⟨n :: before, cause, after, congrArg (n :: ·) hsplit, List.forall_mem_cons.mpr ⟨hn, hb⟩, ?_⟩
      exact (haltedFrom_cons outcome hn notices).trans (congrArg (Run.after · [n]) hx)

end Run

/-! ## The two readings -/

section
variable (s : Settings)

/-- **One entry** is stored alike, but for a malformed declaration. -/
theorem Entry.store_strict (p : Pattern) (e : Entry) :
    e.store { s with strict := true } p = (e.store { s with strict := false } p).halted := by
  cases e with
  | name value => rfl
  | description value => rfl
  | usage text blocks => rfl
  | metadata pair => obtain _ | ⟨key, value⟩ := pair <;> rfl
  | todo item => rfl
  | parameter d =>
    cases hr : Parameter.read? d with
    | some q => rw [store_parameter hr, store_parameter hr]; rfl
    | none => rw [store_malformed hr, store_malformed hr]; rfl

theorem Chunk.scan_strict (ks : List Chunk) (current : Option Pattern) :
    scan { s with strict := true } current ks = (scan { s with strict := false } current ks).halted := by
  induction ks generalizing current with
  | nil => rfl
  | cons k ks ih =>
    rw [scan, scan]
    cases (if k.field.opensPattern then some Pattern.fresh else current) with
    | none =>
      dsimp only
      rw [Run.halted_bind, ih]
      rfl
    | some p =>
      dsimp only
      simp only [Run.halted_bind, store_eq, Entry.store_strict, ih]
      rfl

namespace Source

theorem partialsOf_strict (bodies : List Text) :
    partialsOf { s with strict := true } bodies = (partialsOf { s with strict := false } bodies).halted := by
  induction bodies with
  | nil => rfl
  | cons body bodies ih =>
    rw [partialsOf, partialsOf, ih, Block.patterns, Block.patterns, Chunk.scan_eq, Chunk.scan_eq, Chunk.scan_strict,
      Run.halted_bind]
    simp only [Run.halted_bind]
    rfl

theorem patterns_strict (source : Text) :
    patterns { s with strict := true } source = (patterns { s with strict := false } source).halted := by
  rw [patterns, patterns, partials, partials, partialsOf_strict, Run.halted_bind]
  rfl

/-- **Strict and lenient readings agree.** The lenient reading never fails. If it gives no warning the strict
reading is the same, and else the strict reading gives the notices before the first warning and fails with the
error that the warning is about. -/
theorem patterns_strict_lenient (source : Text) :
    (∃ ps, (patterns { s with strict := false } source).outcome = .ok ps) ∧
    ((∀ n ∈ (patterns { s with strict := false } source).notices, n.importance ≠ .warning) →
      patterns { s with strict := true } source = patterns { s with strict := false } source) ∧
    ((∃ n ∈ (patterns { s with strict := false } source).notices, n.importance = .warning) →
      ∃ before warning after e, (patterns { s with strict := false } source).notices = before ++ warning :: after ∧
        (∀ n ∈ before, n.importance ≠ .warning) ∧ warning.importance = .warning ∧
        patterns { s with strict := true } source = ⟨before, .error (.parameter e)⟩ ∧
        warning.message = "Skipping parameter: " ++ e.message) := by
  rw [patterns_strict]
  refine ⟨?_, Run.halted_of_no_warning, fun hw => ?_⟩
  · obtain h | ⟨hs, -⟩ := patterns_cases { s with strict := false } source
    · exact h
    · cases hs
  · obtain ⟨before, cause, after, hsplit, hb, hx⟩ := Run.halted_of_warning hw
    exact ⟨before, .skippedParameter cause, after, cause, hsplit, hb, rfl, hx, rfl⟩

def twoUntyped : Text := "/*@pattern a\n@meta b\n@param c\n@param d*/".toList

def noValue : Text := "/*@pattern a\n@meta b*/".toList

theorem patterns_strict_lenient_untyped :
    (∃ n ∈ (patterns { strict := false } twoUntyped).notices, n.importance = .warning) ∧
      (∃ before e, patterns {} twoUntyped = ⟨before, .error (.parameter e)⟩ ∧
        ∀ n ∈ before, n.importance ≠ .warning) ∧
      (∀ n ∈ (patterns { strict := false } noValue).notices, n.importance ≠ .warning) ∧
      patterns {} noValue = patterns { strict := false } noValue := by
  have hw : ∃ n ∈ (patterns { strict := false } twoUntyped).notices, n.importance = .warning := by decide +kernel
  have hn : ∀ n ∈ (patterns { strict := false } noValue).notices, n.importance ≠ .warning := by decide +kernel
  obtain ⟨before, _, _, e, -, hb, -, hx, -⟩ := (patterns_strict_lenient {} twoUntyped).2.2 hw
  exact ⟨hw, ⟨before, e, hx, hb⟩, hn, (patterns_strict_lenient {} noValue).2.1 hn⟩

end Source

end

end PatternBook
