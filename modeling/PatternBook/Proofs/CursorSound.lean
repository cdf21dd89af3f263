import PatternBook.Proofs.CursorLemmas

/-!
# Calls on a cursor

A client peeks, steps and steps back in any order, and goes on after a call that fails. What it sees has no
position in it: the lines are in two halves, a call moves one line across the gap between them, and a call that
fails moves none. `Moves` has these rules. Every run of calls on a cursor is the one run by the rules, so the
position never leaves the lines, and the lines never change.
-/

namespace PatternBook.Cursor

inductive Call where
  | peek
  | shift
  | unshift (line : Text)

abbrev Answer := Except CursorError (Option Text)

def call (c : Cursor) : Call → Answer × Cursor
  | .peek => (.ok c.peek?, c)
  | .shift =>
    match c.shift with
    | .ok (line, d) => (.ok (some line), d)
    | .error e => (.error e, c)
  | .unshift line =>
    match c.unshift line with
    | .ok d => (.ok none, d)
    | .error e => (.error e, c)

def run (c : Cursor) : List Call → List Answer × Cursor
  | [] => ([], c)
  | k :: ks => ((c.call k).1 :: ((c.call k).2.run ks).1, ((c.call k).2.run ks).2)

/-! ## Halves -/

@[ext]
structure Halves where
  passed : List Text
  ahead : List Text

def halves (c : Cursor) : Halves := ⟨c.passed, c.ahead⟩

namespace Halves

inductive Moves (h : Halves) : Call → Answer → Halves → Prop where
  | peek : Moves h .peek (.ok h.ahead.head?) h
  | shift {line : Text} {h' : Halves} (ahead : h.ahead = line :: h'.ahead)
      (passed : h'.passed = h.passed ++ [line]) : Moves h .shift (.ok (some line)) h'
  | exhausted (ahead : h.ahead = []) : Moves h .shift (.error .exhausted) h
  | unshift {line : Text} {h' : Halves} (passed : h.passed = h'.passed ++ [line])
      (ahead : h'.ahead = line :: h.ahead) : Moves h (.unshift line) (.ok none) h'
  | atStart {line : Text} (passed : h.passed = []) : Moves h (.unshift line) (.error .notPrevious) h
  | notPrevious {line last : Text} (passed : h.passed.getLast? = some last) (ne : last ≠ line) :
      Moves h (.unshift line) (.error .notPrevious) h

inductive Runs : Halves → List Call → List Answer → Halves → Prop where
  | nil (h : Halves) : Runs h [] [] h
  | cons {h h₁ h₂ : Halves} {k : Call} {ks : List Call} {a : Answer} {as : List Answer}
      (move : h.Moves k a h₁) (run : Runs h₁ ks as h₂) : Runs h (k :: ks) (a :: as) h₂

theorem Moves.whole {h h' : Halves} {k : Call} {a : Answer} (hm : h.Moves k a h') :
    h'.passed ++ h'.ahead = h.passed ++ h.ahead := by
  cases hm with
  | peek | exhausted _ | atStart _ | notPrevious _ _ => rfl
  | shift hahead hpassed => simp [hahead, hpassed]
  | unshift hpassed hahead => simp [hahead, hpassed]

theorem Moves.eq_of_error {h h' : Halves} {k : Call} {e : CursorError} (hm : h.Moves k (.error e) h') : h' = h := by
  cases hm <;> rfl

theorem Moves.unique {h h₁ h₂ : Halves} {k : Call} {a b : Answer} (ha : h.Moves k a h₁) (hb : h.Moves k b h₂) :
    a = b ∧ h₁ = h₂ := by
  cases ha with
  | peek => cases hb; exact ⟨rfl, rfl⟩
  | shift hahead hpassed =>
    cases hb with
    | shift hahead' hpassed' =>
      rw [hahead] at hahead'
      obtain ⟨rfl, ht⟩ := List.cons.inj hahead'
      exact ⟨rfl, Halves.ext (hpassed.trans hpassed'.symm) ht⟩
    | exhausted hnil => rw [hahead] at hnil; cases hnil
  | exhausted hnil =>
    cases hb with
    | shift hahead _ => rw [hnil] at hahead; cases hahead
    | exhausted _ => exact ⟨rfl, rfl⟩
  | unshift hpassed hahead =>
    cases hb with
    | unshift hpassed' hahead' =>
      rw [hpassed] at hpassed'
      exact ⟨rfl, Halves.ext (List.append_cancel_right hpassed') (hahead.trans hahead'.symm)⟩
    | atStart hnil => simp [hpassed] at hnil
    | notPrevious hlast hne => simp [hpassed, hne.symm] at hlast
  | atStart hnil =>
    cases hb with
    | unshift hpassed _ => simp [hnil] at hpassed
    | atStart _ | notPrevious _ _ => exact ⟨rfl, rfl⟩
  | notPrevious hlast hne =>
    cases hb with
    | unshift hpassed _ => simp [hpassed, hne.symm] at hlast
    | atStart _ | notPrevious _ _ => exact ⟨rfl, rfl⟩

theorem Runs.whole {h h' : Halves} {ks : List Call} {as : List Answer} (hr : h.Runs ks as h') :
    h'.passed ++ h'.ahead = h.passed ++ h.ahead := by
  induction hr with
  | nil h => rfl
  | cons move _ ih => exact ih.trans move.whole

theorem Runs.unique {h h₁ h₂ : Halves} {ks : List Call} {as bs : List Answer} (ha : h.Runs ks as h₁)
    (hb : h.Runs ks bs h₂) : as = bs ∧ h₁ = h₂ := by
  induction ha generalizing bs with
  | nil h => cases hb; exact ⟨rfl, rfl⟩
  | cons move _ ih =>
    cases hb with
    | cons move' run' =>
      obtain ⟨rfl, rfl⟩ := move.unique move'
      obtain ⟨rfl, hend⟩ := ih run'
      exact ⟨rfl, hend⟩

end Halves

/-! ## One call -/

theorem halves_injective {c d : Cursor} (h : c.halves = d.halves) : c = d := by
  obtain ⟨hpassed, hahead⟩ := Halves.mk.inj h
  have hpos : c.consumed = d.consumed := by rw [← length_passed, ← length_passed, hpassed]
  have hlines : c.lines = d.lines := by
    rw [← Array.toList_inj, ← passed_append_ahead, ← passed_append_ahead, hpassed, hahead]
  obtain ⟨lines, pos, hle⟩ := c
  obtain rfl : pos = d.pos := hpos
  obtain rfl : lines = d.lines := hlines
  rfl

theorem shift_fails_iff (c : Cursor) : (∃ e, c.shift = .error e) ↔ c.ahead = [] :=
  ⟨fun ⟨_, h⟩ => ahead_of_shift_error h, fun h => ⟨_, shift_of_ahead_nil h⟩⟩

theorem unshift_fails_iff (c : Cursor) (line : Text) : (∃ e, c.unshift line = .error e) ↔
    c.passed = [] ∨ ∃ last, c.passed.getLast? = some last ∧ last ≠ line := by
  constructor
  · rintro ⟨e, he⟩
    cases hp : c.passed.getLast? with
    | none => exact .inl (List.getLast?_eq_none_iff.mp hp)
    | some last =>
      refine .inr ⟨last, rfl, ?_⟩
      rintro rfl
      obtain ⟨d, hu, _⟩ := unshift_of_last hp
      rw [hu] at he
      cases he
  · intro h
    refine ⟨_, unshift_of_not_last ?_⟩
    obtain hnil | ⟨last, hlast, hne⟩ := h
    · simp [hnil]
    · simp [hlast, hne]

theorem moves_call (c : Cursor) (k : Call) : c.halves.Moves k (c.call k).1 (c.call k).2.halves := by
  cases k with
  | peek =>
    simp only [call, peek?_eq_head?]
    exact .peek
  | shift =>
    cases ha : c.ahead with
    | nil =>
      simp only [call, shift_of_ahead_nil ha]
      exact .exhausted ha
    | cons line ls =>
      obtain ⟨d, hs, -, hpassed⟩ := shift_of_ahead_cons ha
      simp only [call, hs]
      exact .shift (ahead_of_shift hs) hpassed
  | unshift line =>
    cases hp : c.passed.getLast? with
    | none =>
      have hu : c.unshift line = .error .notPrevious := unshift_of_not_last (by simp [hp])
      simp only [call, hu]
      exact .atStart (List.getLast?_eq_none_iff.mp hp)
    | some last =>
      by_cases hl : last = line
      · subst hl
        obtain ⟨d, hu, hpassed, hahead⟩ := unshift_of_last hp
        simp only [call, hu]
        exact .unshift hpassed hahead
      · have hu : c.unshift line = .error .notPrevious := unshift_of_not_last (by simp [hp, hl])
        simp only [call, hu]
        exact .notPrevious hp hl

theorem eq_of_call_error {c : Cursor} {k : Call} {e : CursorError} (h : (c.call k).1 = .error e) :
    (c.call k).2 = c := by
  have hm := c.moves_call k
  rw [h] at hm
  exact halves_injective hm.eq_of_error

/-! ## Runs of calls -/

theorem runs_run (c : Cursor) (ks : List Call) : c.halves.Runs ks (c.run ks).1 (c.run ks).2.halves := by
  induction ks generalizing c with
  | nil => exact .nil _
  | cons k ks ih => exact .cons (c.moves_call k) (ih _)

structure Shows (c : Cursor) (ls : List Text) (h : Halves) : Prop where
  lines : c.lines.toList = ls
  whole : h.passed ++ h.ahead = ls
  consumed : c.consumed = h.passed.length
  remaining : c.remaining = h.ahead.length
  peek : c.peek? = h.ahead.head?
  shift_fails : (∃ e, c.shift = .error e) ↔ h.ahead = []
  unshift_fails : ∀ line, (∃ e, c.unshift line = .error e) ↔
    h.passed = [] ∨ ∃ last, h.passed.getLast? = some last ∧ last ≠ line
  stays : ∀ k e, (c.call k).1 = .error e → (c.call k).2 = c

theorem shows_halves (c : Cursor) : c.Shows c.lines.toList c.halves where
  lines := rfl
  whole := c.passed_append_ahead
  consumed := c.length_passed.symm
  remaining := c.length_ahead.symm
  peek := c.peek?_eq_head?
  shift_fails := c.shift_fails_iff
  unshift_fails := c.unshift_fails_iff
  stays := fun _ _ h => eq_of_call_error h

/-- **Every run of calls** is a run by the rules, from no line passed and all lines ahead, and the rules allow no
other answers and no other end. -/
theorem run_refines (ls : List Text) (calls : List Call) :
    ∃ h, (∀ answers h', Halves.Runs ⟨[], ls⟩ calls answers h' ↔ answers = ((ofLines ls).run calls).1 ∧ h' = h) ∧
      ((ofLines ls).run calls).2.Shows ls h := by
  have hrun := (ofLines ls).runs_run calls
  have hshows := ((ofLines ls).run calls).2.shows_halves
  have hlines : ((ofLines ls).run calls).2.lines.toList = ls := by
    rw [← hshows.whole]
    exact hrun.whole
  rw [hlines] at hshows
  refine ⟨_, fun answers h' => ⟨fun hr => hr.unique hrun, ?_⟩, hshows⟩
  rintro ⟨rfl, rfl⟩
  exact hrun

-- two lines are the same: stepping back over one is allowed by the name of the other
example : ((ofLines [['a'], ['a'], ['b']]).run [.unshift ['a'], .shift, .shift, .unshift ['b'], .unshift ['a'],
      .peek, .unshift ['a'], .unshift ['a']]).1 =
    [.error .notPrevious, .ok (some ['a']), .ok (some ['a']), .error .notPrevious, .ok none,
      .ok (some ['a']), .ok none, .error .notPrevious] := rfl

end PatternBook.Cursor
