import PatternBook.Proofs.ScanSound

/-!
# Turn by turn

A block is read in turns: a turn looks at the line ahead, lets its field read on or passes the line. A reader
steps back over the line that stopped it, but never over the line it began with, so every turn passes at least
one line and the turns come to an end. The steps back are always over the line passed last, and no line is asked
for at the end, so the cursor never fails.
-/

namespace PatternBook

namespace Cursor

structure Advances (c d : Cursor) : Prop where
  lines : d.lines = c.lines
  consumed : c.consumed < d.consumed

def toEnd (c : Cursor) : Cursor := ⟨c.lines, c.lines.size, Nat.le_refl _⟩

theorem advances_of_passed {c d : Cursor} {line : Text} {taken : List Text}
    (hp : d.passed = c.passed ++ line :: taken) (ha : c.ahead = line :: taken ++ d.ahead) : c.Advances d where
  lines := by
    rw [← Array.toList_inj, ← passed_append_ahead, ← passed_append_ahead, hp, ha, List.append_assoc]
  consumed := by
    rw [← length_passed, ← length_passed, hp, List.length_append, List.length_cons]
    omega

theorem atEnd_iff (c : Cursor) : c.atEnd = true ↔ c.ahead = [] := by
  simp [atEnd, ahead_eq_nil_iff]

theorem toEnd_of_ahead_nil {c : Cursor} (h : c.ahead = []) : c.toEnd = c := by
  obtain ⟨lines, pos, hle⟩ := c
  rw [ahead_eq_nil_iff] at h
  obtain rfl : pos = lines.size := by
    dsimp only at h
    omega
  rfl

section
variable {c d : Cursor} (h : c.Advances d)
include h

theorem Advances.toEnd : d.toEnd = c.toEnd := by
  unfold Cursor.toEnd
  simp only [h.lines]

theorem Advances.remaining : d.remaining < c.remaining := by
  have hc := h.consumed
  have hd := d.pos_le
  rw [h.lines] at hd
  simp only [Cursor.consumed, Cursor.remaining, h.lines] at hc ⊢
  omega

end

end Cursor

namespace Block

/-! ## One turn -/

def pass (notices : List Notice) (ps : List Pattern) (c : Cursor) : Run ParseError (List Pattern × Cursor) :=
  match c.shift with
  | .error cause => ⟨notices, .error (.cursor cause)⟩
  | .ok (_, next) => ⟨notices, .ok (ps, next)⟩

/-- One turn, with the patterns opened so far. A name opens another; a field is stored on the last. -/
def turn (s : Settings) (ps : List Pattern) (c : Cursor) : Run ParseError (List Pattern × Cursor) :=
  match c.peek?.bind Field.ofLine? with
  | none => pass [] ps c
  | some f =>
    let ps := if f.opensPattern then ps ++ [.fresh] else ps
    match ps.getLast? with
    | none => pass [.outsidePattern f] ps c
    | some p =>
      match f.read c with
      | .error cause => .fail (.cursor cause)
      | .ok (entry, rest) => do
        let q ← entry.store s p
        return (ps.dropLast ++ [q], rest)

def turns (s : Settings) (n : Nat) (ps : List Pattern) (c : Cursor) : Run ParseError (List Pattern × Cursor) :=
  match n with
  | 0 => .done (ps, c)
  | n + 1 =>
    if c.atEnd then .done (ps, c)
    else do
      let (ps, c) ← turn s ps c
      turns s n ps c

section
variable {c : Cursor} {line : Text} {ls : List Text} (h : c.ahead = line :: ls)
include h

theorem pass_eq (notices : List Notice) (ps : List Pattern) :
    ∃ d, pass notices ps c = ⟨notices, .ok (ps, d)⟩ ∧ c.Advances d ∧ d.ahead = ls := by
  obtain ⟨d, hs, ha, hp⟩ := Cursor.shift_of_ahead_cons h
  refine ⟨d, by simp only [pass, hs], Cursor.advances_of_passed hp ?_, ha⟩
  rw [h, ha]
  rfl

theorem read_advances (f : Field) : ∃ d, f.read c = .ok (f.entry line (ls.takeWhile Field.isInside), d) ∧
    c.Advances d ∧ Chunk.cut d.ahead = Chunk.cut ls := by
  obtain ⟨d, hr, ha, hp⟩ := Field.read_eq f h
  refine ⟨d, hr, Cursor.advances_of_passed hp ?_, (Chunk.cut_ahead_of_read h hr).2⟩
  rw [h, ha]
  split <;> simp

/-- **One turn** passes a line at least. It passes over a line that begins no field or has no pattern to go to,
and else stores what the field says. -/
theorem turn_cases (s : Settings) (ps : List Pattern) :
    ∃ d, c.Advances d ∧ Chunk.cut d.ahead = Chunk.cut ls ∧
      (Field.ofLine? line = none ∧ turn s ps c = .done (ps, d) ∨
        ∃ f, Field.ofLine? line = some f ∧
          (f.opensPattern = false ∧ ps = [] ∧ turn s ps c = .note (.outsidePattern f) ([], d) ∨
            ∃ p, (if f.opensPattern then some .fresh else ps.getLast?) = some p ∧
              turn s ps c = do
                let q ← (f.entry line (ls.takeWhile Field.isInside)).store s p
                return ((if f.opensPattern then ps else ps.dropLast) ++ [q], d))) := by
  have hpeek : c.peek? = some line := by rw [Cursor.peek?_eq_head?, h]; rfl
  unfold turn
  rw [hpeek, Option.bind_some]
  cases hf : Field.ofLine? line with
  | none =>
    obtain ⟨d, hd, had, ha⟩ := pass_eq h [] ps
    exact ⟨d, had, congrArg Chunk.cut ha, .inl ⟨rfl, hd⟩⟩
  | some f =>
    obtain ⟨r, hr, har, hcut⟩ := read_advances h f
    by_cases ho : f.opensPattern = true
    · refine ⟨r, har, hcut, .inr ⟨f, rfl, .inr ⟨.fresh, by simp [ho], ?_⟩⟩⟩
      simp [ho, hr]
    · obtain rfl | ⟨qs, p, rfl⟩ := List.eq_nil_or_concat ps
      · obtain ⟨d, hd, had, ha⟩ := pass_eq h [.outsidePattern f] []
        refine ⟨d, had, congrArg Chunk.cut ha, .inr ⟨f, rfl, .inl ⟨by simpa using ho, rfl, ?_⟩⟩⟩
        simp only [ho, Bool.false_eq_true, if_false, List.getLast?_nil]
        exact hd
      · refine ⟨r, har, hcut, .inr ⟨f, rfl, .inr ⟨p, by simp [ho], ?_⟩⟩⟩
        simp [ho, hr]

/-- A turn fails for a malformed declaration or not at all. -/
theorem turn_progress (s : Settings) (ps : List Pattern) :
    (∃ qs d, (turn s ps c).outcome = .ok (qs, d) ∧ c.Advances d) ∨
      ∃ e, (turn s ps c).outcome = .error (.parameter e) := by
  obtain ⟨d, hd, -, ⟨-, ht⟩ | ⟨f, -, ⟨-, -, ht⟩ | ⟨p, -, ht⟩⟩⟩ := turn_cases h s ps
  · exact .inl ⟨ps, d, by rw [ht]; rfl, hd⟩
  · exact .inl ⟨[], d, by rw [ht]; rfl, hd⟩
  · rw [ht]
    obtain ⟨q, hq, -⟩ | ⟨text, -, -, -, hfail⟩ := (f.entry line (ls.takeWhile Field.isInside)).store_cases s p
    · rw [Run.outcome_bind_of_ok hq]
      exact .inl ⟨_, d, rfl, hd⟩
    · rw [hfail, Run.outcome_bind_of_error rfl]
      exact .inr ⟨_, rfl⟩

end

/-! ## All turns -/

theorem dropLast_append_getLast? (ps : List Pattern) : ps.dropLast ++ ps.getLast?.toList = ps := by
  obtain rfl | ⟨qs, p, rfl⟩ := List.eq_nil_or_concat ps <;> simp

theorem turns_of_ahead_nil (s : Settings) (n : Nat) (ps : List Pattern) {c : Cursor} (h : c.ahead = []) :
    turns s n ps c = do
      let qs ← Chunk.scan s ps.getLast? (Chunk.cut c.ahead)
      return (ps.dropLast ++ qs, c.toEnd) := by
  have hturns : turns s n ps c = .done (ps, c) := by
    cases n with
    | zero => rfl
    | succ n => rw [turns, if_pos ((Cursor.atEnd_iff c).mpr h)]
  have hscan : Chunk.scan s ps.getLast? (Chunk.cut c.ahead) = .done ps.getLast?.toList := by rw [h]; rfl
  rw [hturns, hscan, Cursor.toEnd_of_ahead_nil h]
  show _ = Run.done (ps.dropLast ++ ps.getLast?.toList, c)
  rw [dropLast_append_getLast?]

/-- **The turns end**, at the latest when there have been as many as lines, and then the block is read. -/
theorem turns_eq (s : Settings) (n : Nat) (ps : List Pattern) (c : Cursor) (hn : c.remaining ≤ n) :
    turns s n ps c = do
      let qs ← Chunk.scan s ps.getLast? (Chunk.cut c.ahead)
      return (ps.dropLast ++ qs, c.toEnd) := by
  induction n generalizing ps c with
  | zero =>
    have hl := c.length_ahead
    exact turns_of_ahead_nil s 0 ps (List.eq_nil_of_length_eq_zero (by omega))
  | succ n ih =>
    cases hc : c.ahead with
    | nil => exact hc ▸ turns_of_ahead_nil s (n + 1) ps hc
    | cons line ls =>
      have hne : ¬ c.atEnd = true := by simp [Cursor.atEnd_iff, hc]
      rw [turns, if_neg hne]
      obtain ⟨d, hd, hcut, ht⟩ := turn_cases hc s ps
      have hrem := hd.remaining
      have ih' : ∀ qs, turns s n qs d = do
          let rs ← Chunk.scan s qs.getLast? (Chunk.cut ls)
          return (qs.dropLast ++ rs, c.toEnd) := by
        intro qs
        rw [ih qs d (by omega), hcut, hd.toEnd]
      obtain ⟨hf, ht⟩ | ⟨f, hf, ht⟩ := ht
      · rw [ht, Chunk.cut_cons_inside (Chunk.isInside_of_none hf), ← ih']
        rfl
      · obtain ⟨k, hk, rfl, hh, hb⟩ := Chunk.cut_cons_field ls hf
        rw [hk, Chunk.scan]
        obtain ⟨ho, rfl, ht⟩ | ⟨p, hp, ht⟩ := ht
        · rw [ht, if_neg (by simp [ho]), List.getLast?_nil]
          dsimp only
          rw [Run.note_bind, bind_assoc, Run.note_bind]
          exact congrArg (Run.after · _) (ih' [])
        · have hopen : (if k.field.opensPattern then ps else ps.dropLast) =
              ps.dropLast ++ if k.field.opensPattern then ps.getLast?.toList else [] := by
            split
            · exact (dropLast_append_getLast? ps).symm
            · rw [List.append_nil]
          rw [ht, hp]
          simp only [bind_assoc, pure_bind, ih', Chunk.store_eq, hh, hb, List.getLast?_concat, List.dropLast_concat]
          simp only [hopen, List.append_assoc]

end Block

/-- **A reading ends.** Each turn passes a line or fails for a declaration, and as many turns as a block has
lines read the whole of it. A reading fails only under strict settings, and only for a malformed declaration with
a name line before it. -/
theorem Source.patterns_ends (s : Settings) (source : Text) :
    (∀ (ps : List Pattern) (c : Cursor), c.atEnd = false →
      (∃ qs d, (Block.turn s ps c).outcome = .ok (qs, d) ∧ d.lines = c.lines ∧ c.consumed < d.consumed) ∨
        ∃ e, (Block.turn s ps c).outcome = .error (.parameter e)) ∧
    (∀ body ∈ Comment.bodies source, ∀ n, (Text.lines body).length ≤ n →
      Block.turns s n [] (Cursor.ofText body) = do
        let ps ← Block.patterns s body
        return (ps, (Cursor.ofText body).toEnd)) ∧
    (∀ cause, (patterns s source).outcome ≠ .error (.cursor cause)) ∧
    ∀ e, (patterns s source).outcome = .error (.parameter e) →
      s.strict = true ∧ ∃ body ∈ Comment.bodies source, Field.Rejects (Text.lines body) e := by
  refine ⟨fun ps c hc => ?_, fun body _ n hn => ?_, fun cause h => ?_, fun e h => ?_⟩
  · cases ha : c.ahead with
    | nil =>
      rw [(Cursor.atEnd_iff c).mpr ha] at hc
      cases hc
    | cons line ls =>
      obtain ⟨qs, d, ht, hd⟩ | he := Block.turn_progress ha s ps
      · exact .inl ⟨qs, d, ht, hd.lines, hd.consumed⟩
      · exact .inr he
  · have hr : (Cursor.ofText body).remaining ≤ n := by rwa [← Cursor.length_ahead, Cursor.ahead_ofText]
    rw [Block.turns_eq s n [] _ hr, Block.patterns, Chunk.scan_eq]
    rfl
  · obtain ⟨ps, hps⟩ | ⟨-, e, he, -⟩ := patterns_cases s source
    · rw [hps] at h; cases h
    · rw [he] at h; cases h
  · obtain ⟨ps, hps⟩ | ⟨hs, e', he, hr⟩ := patterns_cases s source
    · rw [hps] at h; cases h
    · rw [he] at h
      cases h
      exact ⟨hs, hr⟩

def Source.untyped : Text := "/*@pattern a\n@example b\n c\n d\n@param e*/".toList

theorem Source.patterns_ends_untyped :
    (patterns {} untyped).outcome = .error (.parameter ⟨['e'], some ['a']⟩) ∧
      (∃ body ∈ Comment.bodies untyped, Field.Rejects (Text.lines body) ⟨['e'], some ['a']⟩) ∧
      ∃ body ∈ Comment.bodies untyped, Block.turns {} 5 [] (Cursor.ofText body) = do
        let ps ← Block.patterns {} body
        return (ps, (Cursor.ofText body).toEnd) := by
  have he : (patterns {} untyped).outcome = .error (.parameter ⟨['e'], some ['a']⟩) := by decide +kernel
  have hb : ∃ body ∈ Comment.bodies untyped, (Text.lines body).length ≤ 5 := by decide +kernel
  obtain ⟨body, hm, hl⟩ := hb
  obtain ⟨-, hturns, -, hfail⟩ := patterns_ends {} untyped
  exact ⟨he, (hfail _ he).2, body, hm, hturns body hm 5 hl⟩

end PatternBook
