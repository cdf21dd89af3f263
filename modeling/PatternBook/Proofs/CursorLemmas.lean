import PatternBook.Cursor

/-!
# What a cursor passes over

A cursor is known by the lines passed and the lines ahead. Stepping moves one line across, stepping
back undoes it if the caller names that line, and a body is taken up to the line that `stop` accepts:
the loop steps over that line too, but always steps back.
-/

namespace PatternBook.Cursor

theorem ahead_ofLines (ls : List Text) : (ofLines ls).ahead = ls := rfl

theorem ahead_ofText (s : Text) : (ofText s).ahead = Text.lines s := rfl

theorem passed_append_ahead (c : Cursor) : c.passed ++ c.ahead = c.lines.toList := List.take_append_drop ..

theorem length_passed (c : Cursor) : c.passed.length = c.consumed := by
  have := c.pos_le
  simp only [passed, consumed, List.length_take, Array.length_toList]
  omega

theorem length_ahead (c : Cursor) : c.ahead.length = c.remaining := by
  simp [ahead, remaining]

theorem peek?_eq_head? (c : Cursor) : c.peek? = c.ahead.head? := by
  simp [peek?, ahead]

theorem ahead_eq_nil_iff (c : Cursor) : c.ahead = [] ↔ ¬ c.pos < c.lines.size := by
  simp [ahead]

theorem shift_of_ahead_nil {c : Cursor} (h : c.ahead = []) : c.shift = .error .exhausted := by
  rw [ahead_eq_nil_iff] at h
  simp [shift, h]

theorem shift_of_ahead_cons {c : Cursor} {line : Text} {ls : List Text} (h : c.ahead = line :: ls) :
    ∃ d, c.shift = .ok (line, d) ∧ d.ahead = ls ∧ d.passed = c.passed ++ [line] := by
  have hp : c.pos < c.lines.size := by
    refine Classical.byContradiction fun hp => ?_
    rw [(ahead_eq_nil_iff c).mpr hp] at h
    simp at h
  have hd : c.ahead = c.lines[c.pos] :: c.lines.toList.drop (c.pos + 1) := by
    unfold ahead
    rw [List.drop_eq_getElem_cons (by simpa using hp)]
    simp
  rw [hd] at h
  obtain ⟨hline, hrest⟩ := List.cons.inj h
  refine ⟨⟨c.lines, c.pos + 1, hp⟩, by simp [shift, hp, hline], hrest, ?_⟩
  unfold passed
  rw [List.take_succ_eq_append_getElem (by simpa using hp)]
  simp [hline]

theorem ahead_of_shift {c d : Cursor} {line : Text} (h : c.shift = .ok (line, d)) :
    c.ahead = line :: d.ahead := by
  cases hc : c.ahead with
  | nil => rw [shift_of_ahead_nil hc] at h; simp at h
  | cons line' ls =>
    obtain ⟨d', hs, ha, _⟩ := shift_of_ahead_cons hc
    rw [hs] at h
    simp only [Except.ok.injEq, Prod.mk.injEq] at h
    obtain ⟨rfl, rfl⟩ := h
    rw [ha]

theorem passed_of_shift {c d : Cursor} {line : Text} (h : c.shift = .ok (line, d)) :
    d.passed = c.passed ++ [line] := by
  obtain ⟨d', hs, _, hp⟩ := shift_of_ahead_cons (ahead_of_shift h)
  rw [h] at hs
  simp only [Except.ok.injEq, Prod.mk.injEq, true_and] at hs
  rw [hs, hp]

theorem ahead_of_shift_error {c : Cursor} {e : CursorError} (h : c.shift = .error e) : c.ahead = [] := by
  cases hc : c.ahead with
  | nil => rfl
  | cons line ls =>
    obtain ⟨d, hs, _⟩ := shift_of_ahead_cons hc
    rw [hs] at h
    simp at h

theorem unshift_of_shift {c d : Cursor} {line : Text} (h : c.shift = .ok (line, d)) :
    d.unshift line = .ok c := by
  unfold shift at h
  split at h
  · rename_i hp
    simp only [Except.ok.injEq, Prod.mk.injEq] at h
    obtain ⟨rfl, rfl⟩ := h
    simp [unshift, hp]
  · simp at h

theorem shift_of_unshift {c d : Cursor} {line : Text} (h : c.unshift line = .ok d) : d.shift = .ok (line, c) := by
  unfold unshift at h
  split at h
  · rename_i hl
    obtain ⟨hpos, hline⟩ := hl
    obtain ⟨hp, hline⟩ := Array.getElem?_eq_some_iff.mp hline
    obtain rfl := Except.ok.inj h
    have hsucc : c.pos - 1 + 1 = c.pos := Nat.sub_add_cancel hpos
    simp [shift, hp, hline, hsucc]
  · simp at h

theorem getLast?_passed_iff {c : Cursor} {line : Text} :
    c.passed.getLast? = some line ↔ 0 < c.pos ∧ c.lines[c.pos - 1]? = some line := by
  by_cases hpos : 0 < c.pos
  · have hp : c.pos - 1 < c.lines.size := by have := c.pos_le; omega
    simp [passed, List.getLast?_take, hpos, hp, Nat.pos_iff_ne_zero.mp hpos]
  · have h0 : c.pos = 0 := by omega
    simp [passed, h0]

theorem unshift_of_last {c : Cursor} {line : Text} (h : c.passed.getLast? = some line) :
    ∃ d, c.unshift line = .ok d ∧ c.passed = d.passed ++ [line] ∧ d.ahead = line :: c.ahead := by
  have hu : c.unshift line = .ok ⟨c.lines, c.pos - 1, Nat.le_trans (Nat.sub_le _ _) c.pos_le⟩ :=
    if_pos (getLast?_passed_iff.mp h)
  have hs := shift_of_unshift hu
  exact ⟨_, hu, passed_of_shift hs, ahead_of_shift hs⟩

theorem unshift_of_not_last {c : Cursor} {line : Text} (h : c.passed.getLast? ≠ some line) :
    c.unshift line = .error .notPrevious :=
  if_neg fun hl => h (getLast?_passed_iff.mpr hl)

/-! ## Taking a body -/

section
variable (stop : Text → Bool)

/-- The loop never fails, takes the lines before the next that `stop` accepts and leaves that one. -/
theorem takeFrom_eq (taken : List Text) (c : Cursor) (ht : taken ≠ []) :
    ∃ d, takeFrom stop taken c = .ok (taken ++ c.ahead.takeWhile (fun line => !stop line), d) ∧
      d.ahead = c.ahead.dropWhile (fun line => !stop line) ∧
      d.passed = c.passed ++ c.ahead.takeWhile (fun line => !stop line) := by
  -- the induction is on the lines ahead
  induction hls : c.ahead generalizing taken c with
  | nil =>
    refine ⟨c, ?_, hls, by simp⟩
    rw [takeFrom]
    split
    · simp
    · rename_i line next hs
      rw [shift_of_ahead_nil hls] at hs
      simp at hs
  | cons line ls ih =>
    obtain ⟨next, hs, ha, hp⟩ := shift_of_ahead_cons hls
    have hstep : takeFrom stop taken c =
        if stop line then .ok (taken, c) else takeFrom stop (taken ++ [line]) next := by
      rw [takeFrom]
      split
      · simp_all
      · rename_i line' next' hs'
        rw [hs] at hs'
        simp only [Except.ok.injEq, Prod.mk.injEq] at hs'
        obtain ⟨rfl, rfl⟩ := hs'
        simp [ht, unshift_of_shift hs]
    rw [hstep]
    by_cases hl : stop line
    · exact ⟨c, by simp [hl], by simp [hl, hls], by simp [hl]⟩
    · obtain ⟨d, hd, hahead, hpassed⟩ := ih (taken ++ [line]) next (by simp) ha
      refine ⟨d, ?_, ?_, ?_⟩
      · simp [hl, hd]
      · simp [hl, hahead]
      · simp [hl, hpassed, hp]

theorem takeBody_eq {c : Cursor} {line : Text} {ls : List Text} (h : c.ahead = line :: ls) :
    ∃ d, takeBody stop c = .ok (line :: ls.takeWhile (fun line => !stop line), d) ∧
      d.ahead = ls.dropWhile (fun line => !stop line) ∧
      d.passed = c.passed ++ line :: ls.takeWhile (fun line => !stop line) := by
  obtain ⟨next, hs, ha, hp⟩ := shift_of_ahead_cons h
  have hstep : takeBody stop c = takeFrom stop [line] next := by
    rw [takeBody, takeFrom]
    split
    · simp_all
    · rename_i line' next' hs'
      rw [hs] at hs'
      simp only [Except.ok.injEq, Prod.mk.injEq] at hs'
      obtain ⟨rfl, rfl⟩ := hs'
      simp
  obtain ⟨d, hd, hahead, hpassed⟩ := takeFrom_eq stop [line] next (by simp)
  rw [ha] at hd hahead hpassed
  exact ⟨d, by rw [hstep, hd]; rfl, hahead, by rw [hpassed, hp]; simp⟩

end

end PatternBook.Cursor
