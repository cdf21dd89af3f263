import PatternBook.Comment
import PatternBook.Proofs.TextLemmas

/-!
# Comments and their nearest close

The scan takes the whole border run behind `/*` before it looks for `*/`, so the star of the nearest
`*/` can be lost to the border. `next?_of_border` says when: the text up to that `*/` is all border, and
there is another `*/` behind it. Every other comment ends at its nearest close.
-/

namespace PatternBook.Comment

def opening : Text := ['/', '*']

def closing : Text := ['*', '/']

/-! ## The first occurrence of a mark -/

def cutMark? (mark : Text) : Text → Option (Text × Text)
  | [] => none
  | c :: s =>
    match Text.after? mark (c :: s) with
    | some rest => some ([], rest)
    | none => (cutMark? mark s).map fun (before, rest) => (c :: before, rest)

theorem cutMark?_eq_append {mark : Text} : ∀ {s before rest : Text},
    cutMark? mark s = some (before, rest) → s = before ++ mark ++ rest
  | [], _, _, h => by simp [cutMark?] at h
  | c :: s, before, rest, h => by
    unfold cutMark? at h
    cases ha : Text.after? mark (c :: s) with
    | some r =>
      simp only [ha, Option.some.injEq, Prod.mk.injEq] at h
      obtain ⟨rfl, rfl⟩ := h
      exact Text.after?_eq_some_iff.mp ha
    | none =>
      simp only [ha, Option.map_eq_some_iff, Prod.mk.injEq, Prod.exists] at h
      obtain ⟨b, r, hc, rfl, rfl⟩ := h
      rw [cutMark?_eq_append hc]; rfl

theorem cutMark?_first {mark : Text} : ∀ {s before rest : Text},
    cutMark? mark s = some (before, rest) →
      ∀ b r : Text, s = b ++ mark ++ r → before.length ≤ b.length
  | [], _, _, h => by simp [cutMark?] at h
  | c :: s, before, rest, h => by
    intro b r hs
    unfold cutMark? at h
    cases ha : Text.after? mark (c :: s) with
    | some r' =>
      simp only [ha, Option.some.injEq, Prod.mk.injEq] at h
      simp [← h.1]
    | none =>
      simp only [ha, Option.map_eq_some_iff, Prod.mk.injEq, Prod.exists] at h
      obtain ⟨b', r', hc, rfl, rfl⟩ := h
      cases b with
      | nil =>
        rw [List.nil_append] at hs
        rw [Text.after?_eq_some_iff.mpr hs] at ha
        simp at ha
      | cons d b =>
        simp only [List.cons_append, List.cons.injEq] at hs
        have := cutMark?_first hc b r hs.2
        simpa using this

theorem cutMark?_eq_none_iff {mark : Text} (hm : mark ≠ []) :
    ∀ {s : Text}, cutMark? mark s = none ↔ ¬ mark <:+: s
  | [] => by simp [cutMark?, hm]
  | c :: s => by
    unfold cutMark?
    rw [List.infix_cons_iff]
    cases ha : Text.after? mark (c :: s) with
    | some r =>
      have : mark <+: c :: s := ⟨r, (Text.after?_eq_some_iff.mp ha).symm⟩
      simp [this]
    | none =>
      have : ¬ mark <+: c :: s := by
        rintro ⟨r, hr⟩
        rw [Text.after?_eq_some_iff.mpr hr.symm] at ha
        simp at ha
      simp [this, cutMark?_eq_none_iff hm]

theorem not_infix_of_cutMark? {mark s before rest : Text} (hm : mark ≠ [])
    (h : cutMark? mark s = some (before, rest)) : ¬ mark <:+: before := by
  rintro ⟨b, r, hb⟩
  have hs : s = b ++ mark ++ (r ++ mark ++ rest) := by
    rw [cutMark?_eq_append h, ← hb]; simp
  have := cutMark?_first h _ _ hs
  have hl : 0 < mark.length := List.length_pos_iff.mpr hm
  rw [← hb] at this
  simp only [List.length_append] at this
  omega

theorem cutMark?_closing (rest : Text) : ∀ {s : Text}, ¬ closing <:+: s →
    cutMark? closing (s ++ closing ++ rest) = some (s, rest)
  | [], _ => rfl
  | c :: s, h => by
    rw [List.infix_cons_iff, not_or] at h
    have ha : Text.after? closing (c :: (s ++ closing ++ rest)) = none := by
      rw [Text.after?_eq_none_iff]
      intro r hr
      -- the star of a close cannot be followed by the star of the last
      cases s with
      | nil => simp [closing] at hr
      | cons d s =>
        refine h.1 ⟨s, ?_⟩
        simp only [closing, List.cons_append, List.cons.injEq] at hr ⊢
        exact ⟨hr.1.symm, hr.2.1.symm, rfl⟩
    rw [List.cons_append, List.cons_append, cutMark?, ha, cutMark?_closing rest h.2]
    rfl

theorem afterOpen?_eq (s : Text) : afterOpen? s = (cutMark? opening s).map Prod.snd := by
  fun_induction afterOpen? s with
  | case1 s => rfl
  | case2 c s hne ih =>
    have ha : Text.after? opening (c :: s) = none := by
      rw [Text.after?_eq_none_iff]
      rintro r hr
      obtain ⟨rfl, hs⟩ := List.cons.inj hr
      exact hne r rfl hs
    rw [ih, cutMark?, ha]
    cases cutMark? opening s <;> rfl
  | case3 => rfl

theorem cutClose?_eq (s : Text) : cutClose? s = cutMark? closing s := by
  fun_induction cutClose? s with
  | case1 s => rfl
  | case2 c s hne ih =>
    have ha : Text.after? closing (c :: s) = none := by
      rw [Text.after?_eq_none_iff]
      rintro r hr
      obtain ⟨rfl, hs⟩ := List.cons.inj hr
      exact hne r rfl hs
    rw [ih, cutMark?, ha]
  | case3 => rfl

/-! ## The nearest close -/

/-- The text from the first `/*` to the nearest `*/` behind it, and what follows. -/
def nearest? (text : Text) : Option (Text × Text) :=
  match cutMark? opening text with
  | none => none
  | some (_, inner) => cutMark? closing inner

theorem cutMark?_drop {mark : Text} : ∀ {u s v rest : Text},
    cutMark? mark (u ++ s) = some (u ++ v, rest) → cutMark? mark s = some (v, rest)
  | [], _, _, _, h => h
  | c :: u, s, v, rest, h => by
    rw [List.cons_append, cutMark?] at h
    cases ha : Text.after? mark (c :: (u ++ s)) with
    | some r => simp [ha] at h
    | none =>
      simp only [ha, Option.map_eq_some_iff, Prod.mk.injEq, Prod.exists, List.cons_append,
        List.cons.injEq] at h
      obtain ⟨b, r, hc, ⟨_, rfl⟩, rfl⟩ := h
      exact cutMark?_drop hc

theorem next?_eq_none {text : Text} (h : nearest? text = none) : next? text = none := by
  unfold nearest? at h
  unfold next?
  rw [afterOpen?_eq]
  cases ho : cutMark? opening text with
  | none => rfl
  | some p =>
    obtain ⟨gap, inner⟩ := p
    simp only [ho] at h
    simp only [Option.map_some]
    have hn : ¬ closing <:+: inner := (cutMark?_eq_none_iff (by decide)).mp h
    have hd : cutMark? closing (inner.dropWhile isBorder) = none := by
      rw [cutMark?_eq_none_iff (by decide)]
      exact fun hi => hn (hi.trans (List.dropWhile_suffix _).isInfix)
    simp only [cutClose?_eq, hd]
    -- a star that ends the border run and a slash behind it would be a close
    split
    · rename_i r hl hr
      obtain ⟨b, hb⟩ := List.getLast?_eq_some_iff.mp hl
      refine absurd ⟨b, r, ?_⟩ hn
      conv => rhs; rw [← List.takeWhile_append_dropWhile (p := isBorder) (l := inner), hb, hr]
      simp [closing]
    · rfl

section
variable {text interior rest : Text} (h : nearest? text = some (interior, rest))
include h

theorem nearest?_inner : ∃ gap inner, cutMark? opening text = some (gap, inner) ∧
    cutMark? closing inner = some (interior, rest) := by
  unfold nearest? at h
  cases ho : cutMark? opening text with
  | none => simp [ho] at h
  | some p =>
    obtain ⟨gap, inner⟩ := p
    rw [ho] at h
    exact ⟨gap, inner, rfl, h⟩

theorem next?_of_inside (hb : ¬ ∀ c ∈ interior, isBorder c = true) :
    next? text = some (Text.trim isBorder interior, rest) := by
  obtain ⟨gap, inner, ho, hc⟩ := nearest?_inner h
  have hi := cutMark?_eq_append hc
  have hd : inner.dropWhile isBorder = interior.dropWhile isBorder ++ (closing ++ rest) := by
    rw [hi, List.append_assoc, List.dropWhile_append]
    rw [← List.dropWhile_eq_nil_iff] at hb
    simp [hb]
  have hcut : cutMark? closing (inner.dropWhile isBorder) =
      some (interior.dropWhile isBorder, rest) := by
    apply cutMark?_drop (u := interior.takeWhile isBorder)
    rw [hd, ← List.append_assoc, List.takeWhile_append_dropWhile, ← List.append_assoc, ← hi, hc]
  unfold next?
  rw [afterOpen?_eq, ho]
  simp only [Option.map_some, cutClose?_eq, hcut]
  rfl

theorem next?_of_border (hb : ∀ c ∈ interior, isBorder c = true) :
    next? text =
      match cutMark? closing rest with
      | some (body, rest) => some (Text.trimEnd isBorder ('/' :: body), rest)
      | none => some ([], rest) := by
  obtain ⟨gap, inner, ho, hc⟩ := nearest?_inner h
  have hi : inner = (interior ++ ['*']) ++ ('/' :: rest) := by
    rw [cutMark?_eq_append hc]; simp [closing]
  have hb' : ∀ c ∈ interior ++ ['*'], isBorder c = true := by
    intro c hc
    rcases List.mem_append.mp hc with hc | hc
    · exact hb c hc
    · rw [List.mem_singleton.mp hc]; decide
  have hslash : ∀ c ∈ ('/' :: rest).head?, isBorder c = false := by simp +decide
  have ht : inner.takeWhile isBorder = interior ++ ['*'] := by rw [hi, Text.takeWhile_run hb' hslash]
  have hd : inner.dropWhile isBorder = '/' :: rest := by rw [hi, Text.dropWhile_run hb' hslash]
  have hcut : cutMark? closing ('/' :: rest) =
      (cutMark? closing rest).map fun (body, rest) => ('/' :: body, rest) := by
    rw [cutMark?]; rfl
  unfold next?
  rw [afterOpen?_eq, ho]
  simp only [Option.map_some, cutClose?_eq, hd, hcut, ht]
  cases cutMark? closing rest with
  | none => simp
  | some p => rfl

theorem nearest?_length : rest.length < text.length := by
  obtain ⟨gap, inner, ho, hc⟩ := nearest?_inner h
  rw [cutMark?_eq_append ho, cutMark?_eq_append hc]
  simp only [opening, closing, List.length_append, List.length_cons]
  omega

end

/-! ## Closing every comment at its nearest close -/

structure Span where
  interior : Text
  after : Text

/-- The comments of a text, each from the next `/*` to the nearest `*/` behind that. -/
def spans (text : Text) : List Span :=
  match _h : nearest? text with
  | none => []
  | some (interior, rest) => ⟨interior, rest⟩ :: spans rest
termination_by text.length
decreasing_by exact nearest?_length _h

def firstClose (text : Text) : List Text := (spans text).map fun s => Text.trim isBorder s.interior

theorem bodies_of_none {text : Text} (h : next? text = none) : bodies text = [] := by
  rw [bodies]; split <;> simp_all

theorem bodies_of_some {text body rest : Text} (h : next? text = some (body, rest)) :
    bodies text = body :: bodies rest := by
  rw [bodies]; split <;> simp_all

theorem trim_border {s : Text} (h : ∀ c ∈ s, isBorder c = true) : Text.trim isBorder s = [] := by
  unfold Text.trim Text.trimStart
  rw [List.dropWhile_eq_nil_iff.mpr h]; rfl

theorem trimEnd_slash_ne (s : Text) : Text.trimEnd isBorder ('/' :: s) ≠ [] := by
  intro h
  have := List.rdropWhile_eq_nil_iff.mp h '/' (by simp)
  exact absurd this (by decide)

/-- Comments are closed at their nearest `*/` up to the first whose interior is all border and that
has another `*/` behind it. -/
theorem bodies_eq_firstClose_iff (text : Text) :
    bodies text = firstClose text ↔
      ∀ s ∈ spans text, (∀ c ∈ s.interior, isBorder c = true) → ¬ closing <:+: s.after := by
  unfold firstClose
  fun_induction spans text with
  | case1 text hn => simp [bodies_of_none (next?_eq_none hn)]
  | case2 text interior rest hs ih =>
    simp only [List.map_cons, List.forall_mem_cons]
    by_cases hb : ∀ c ∈ interior, isBorder c = true
    · have hnext := next?_of_border hs hb
      cases hc : cutMark? closing rest with
      | none =>
        have hr : ¬ closing <:+: rest := (cutMark?_eq_none_iff (by decide)).mp hc
        rw [hc] at hnext
        rw [bodies_of_some hnext, trim_border hb]
        simp [ih, hr]
      | some p =>
        -- the comment runs on to the next close, and its body begins with a slash
        obtain ⟨body, after⟩ := p
        have hr : closing <:+: rest := ⟨body, after, (cutMark?_eq_append hc).symm⟩
        rw [hc] at hnext
        rw [bodies_of_some hnext, trim_border hb]
        refine iff_of_false (fun h => ?_) (fun h => h.1 hb hr)
        exact trimEnd_slash_ne body (List.cons.inj h).1
    · rw [bodies_of_some (next?_of_inside hs hb)]
      simp [ih, hb]

/-- Two empty comments: the text between them is read as the body of one. -/
theorem bodies_ne_firstClose :
    bodies ['/', '*', '*', '/', 'x', '/', '*', '*', '/'] = [['/', 'x', '/']] ∧
      firstClose ['/', '*', '*', '/', 'x', '/', '*', '*', '/'] = [[], []] := by
  decide +kernel

/-! ## Every text is gaps, comments and a tail -/

/-- A comment with the gap in front of it: `/*`, a border run, the body, a border run and `*/`. -/
structure Piece where
  gap : Text
  left : Text
  body : Text
  right : Text
  gap_open : ¬ opening <:+: gap
  left_border : ∀ c ∈ left, isBorder c = true
  right_border : ∀ c ∈ right, isBorder c = true
  body_close : ¬ closing <:+: body
  body_head : ∀ c ∈ body.head?, isBorder c = false
  body_last : ∀ c ∈ body.getLast?, isBorder c = false

def Piece.text (p : Piece) : Text := p.gap ++ opening ++ p.left ++ p.body ++ p.right ++ closing

def Piece.ofCore (gap left core : Text) (hg : ¬ opening <:+: gap)
    (hl : ∀ c ∈ left, isBorder c = true) (hc : ¬ closing <:+: core)
    (hh : ∀ c ∈ core.head?, isBorder c = false) : Piece where
  gap := gap
  left := left
  body := Text.trimEnd isBorder core
  right := core.rtakeWhile isBorder
  gap_open := hg
  left_border := hl
  right_border := fun _ h => List.mem_rtakeWhile_imp h
  body_close := fun h => hc (h.trans (List.rdropWhile_prefix _ _).isInfix)
  body_head := fun c h => by
    obtain ⟨t, ht⟩ := List.rdropWhile_prefix isBorder core
    refine hh c ?_
    rw [← ht, List.head?_append]
    simp only [Option.mem_def] at h ⊢
    rw [show core.rdropWhile isBorder = Text.trimEnd isBorder core from rfl, h]; rfl
  body_last := fun c h => by
    obtain ⟨t, ht⟩ := List.getLast?_eq_some_iff.mp h
    have hne : core.rdropWhile isBorder ≠ [] := by
      rw [show core.rdropWhile isBorder = t ++ [c] from ht]; simp
    have hlast := List.rdropWhile_last_not isBorder core hne
    have : (core.rdropWhile isBorder).getLast hne = c := by
      simp [show core.rdropWhile isBorder = t ++ [c] from ht]
    simpa [this] using hlast

theorem Piece.text_ofCore {gap left core : Text} (hg : ¬ opening <:+: gap)
    (hl : ∀ c ∈ left, isBorder c = true) (hc : ¬ closing <:+: core)
    (hh : ∀ c ∈ core.head?, isBorder c = false) :
    (Piece.ofCore gap left core hg hl hc hh).text = gap ++ opening ++ left ++ core ++ closing := by
  simp only [Piece.text, Piece.ofCore, List.append_assoc]
  congr 3
  rw [← List.append_assoc]
  congr 1
  exact List.rdropWhile_append_rtakeWhile

theorem next?_piece {text body rest : Text} (h : next? text = some (body, rest)) :
    ∃ p : Piece, p.body = body ∧ text = p.text ++ rest := by
  cases hn : nearest? text with
  | none => rw [next?_eq_none hn] at h; simp at h
  | some q =>
    obtain ⟨interior, behind⟩ := q
    obtain ⟨gap, inner, ho, hc⟩ := nearest?_inner hn
    have hg : ¬ opening <:+: gap := not_infix_of_cutMark? (by decide) ho
    have hi : ¬ closing <:+: interior := not_infix_of_cutMark? (by decide) hc
    have ht : text = gap ++ opening ++ (interior ++ closing ++ behind) := by
      rw [cutMark?_eq_append ho, cutMark?_eq_append hc]
    by_cases hb : ∀ c ∈ interior, isBorder c = true
    · rw [next?_of_border hn hb] at h
      cases hr : cutMark? closing behind with
      | none =>
        simp only [hr, Option.some.injEq, Prod.mk.injEq] at h
        obtain ⟨rfl, rfl⟩ := h
        have hnil : ¬ closing <:+: ([] : Text) := by simp [closing]
        have hhead : ∀ c ∈ ([] : Text).head?, isBorder c = false := by simp
        refine ⟨Piece.ofCore gap interior [] hg hb hnil hhead, rfl, ?_⟩
        rw [Piece.text_ofCore, ht]; simp
      | some q =>
        -- the star of the nearest close belongs to the border, its slash to the body
        obtain ⟨b, r⟩ := q
        simp only [hr, Option.some.injEq, Prod.mk.injEq] at h
        obtain ⟨rfl, rfl⟩ := h
        have hb' : ∀ c ∈ interior ++ ['*'], isBorder c = true := by
          intro c hc
          rcases List.mem_append.mp hc with hc | hc
          · exact hb c hc
          · rw [List.mem_singleton.mp hc]; decide
        have hcore : ¬ closing <:+: '/' :: b := by
          rw [List.infix_cons_iff]
          rintro (⟨t, ht⟩ | hi)
          · simp [closing] at ht
          · exact not_infix_of_cutMark? (by decide) hr hi
        refine ⟨Piece.ofCore gap (interior ++ ['*']) ('/' :: b) hg hb' hcore ?_, rfl, ?_⟩
        · intro c hc
          rw [← Option.some.inj hc]; decide
        · rw [Piece.text_ofCore, ht, cutMark?_eq_append hr]; simp [closing]
    · rw [next?_of_inside hn hb] at h
      simp only [Option.some.injEq, Prod.mk.injEq] at h
      obtain ⟨rfl, rfl⟩ := h
      refine ⟨Piece.ofCore gap (interior.takeWhile isBorder) (interior.dropWhile isBorder) hg
        (fun _ => List.mem_takeWhile_imp) (fun hd => ?_) (Text.head_dropWhile _ interior), rfl, ?_⟩
      · exact hi (hd.trans (List.dropWhile_suffix _).isInfix)
      · rw [Piece.text_ofCore, ht]; simp

theorem nearest?_eq_none {text : Text} (h : next? text = none) : nearest? text = none := by
  cases hn : nearest? text with
  | none => rfl
  | some q =>
    obtain ⟨interior, rest⟩ := q
    by_cases hb : ∀ c ∈ interior, isBorder c = true
    · rw [next?_of_border hn hb] at h
      split at h <;> simp at h
    · rw [next?_of_inside hn hb] at h
      simp at h

/-- Where the scan stops, no `*/` stands behind a `/*`. -/
theorem no_comment_of_next?_none {text : Text} (h : next? text = none) (a b c : Text) :
    text ≠ a ++ opening ++ b ++ closing ++ c := by
  intro ht
  have ht' : text = a ++ opening ++ (b ++ closing ++ c) := by rw [ht]; simp
  have hn := nearest?_eq_none h
  unfold nearest? at hn
  cases ho : cutMark? opening text with
  | none => exact (cutMark?_eq_none_iff (by decide)).mp ho ⟨a, b ++ closing ++ c, ht'.symm⟩
  | some p =>
    obtain ⟨gap, inner⟩ := p
    simp only [ho] at hn
    have hg := cutMark?_first ho a _ ht'
    have hi := cutMark?_eq_append ho
    -- both are what follows a `/*`, and the first one leaves the longer text
    have hlen : (b ++ closing ++ c).length ≤ inner.length := by
      have := congrArg List.length (hi.symm.trans ht')
      simp only [List.length_append] at this ⊢
      omega
    have hsuf : b ++ closing ++ c <:+ inner :=
      List.suffix_of_suffix_length_le ⟨_, ht'.symm⟩ ⟨_, hi.symm⟩ hlen
    exact (cutMark?_eq_none_iff (by decide)).mp hn ((List.infix_append _ _ _).trans hsuf.isInfix)

theorem bodies_factor (text : Text) :
    ∃ (pieces : List Piece) (tail : Text), text = pieces.flatMap Piece.text ++ tail ∧
      bodies text = pieces.map Piece.body ∧
      ∀ a b c : Text, tail ≠ a ++ opening ++ b ++ closing ++ c := by
  fun_induction bodies text with
  | case1 text hn => exact ⟨[], text, rfl, rfl, no_comment_of_next?_none hn⟩
  | case2 text body rest hs ih =>
    obtain ⟨pieces, tail, hr, hb, htail⟩ := ih
    obtain ⟨p, rfl, ht⟩ := next?_piece hs
    refine ⟨p :: pieces, tail, ?_, ?_, htail⟩
    · rw [ht, hr]; simp
    · rw [hb]; rfl

end PatternBook.Comment
