import Mathlib.Data.List.TakeWhile
import PatternBook.Block
import PatternBook.Proofs.CursorLemmas

/-!
# A block is its chunks

A chunk is a line that begins a field, with the lines up to the next such line. Reading a field on
the shared cursor gives what reading its chunk alone gives, and leaves no line of another chunk
passed, so a block is read by storing its chunks one after the other.
-/

namespace PatternBook

def Pattern.fresh : Pattern := { metadata := .empty }

theorem Pattern.fresh_eq : ({} : Pattern) = .fresh := rfl

def Run.after {ε α : Type} (x : Run ε α) (notices : List Notice) : Run ε α :=
  ⟨notices ++ x.notices, x.outcome⟩

namespace Field

/-! ## Reading a field on its own lines -/

def isInside (line : Text) : Bool := !isFieldLine line

/-- What a field says that begins with `head` and has the lines `body` before the next field. -/
def entry (f : Field) (head : Text) (body : List Text) : Entry :=
  match f with
  | name => .name (single f.tag head)
  | description => .description (folded (some f.tag) (head :: body))
  | parameter => .parameter (single f.tag head)
  | usage => .usage (single f.tag head) (if body.isEmpty then [] else codeBlocks (verbatim none body))
  | metadata => .metadata (keyValue? (single f.tag head))
  | todo => .todo (folded (some f.tag) (head :: body))

def takesBody : Field → Bool
  | description | usage | todo => true
  | name | parameter | metadata => false

theorem readSingle_eq (tag : Text) {c : Cursor} {line : Text} {ls : List Text}
    (h : c.ahead = line :: ls) :
    ∃ d, readSingle tag c = .ok (single tag line, d) ∧ d.ahead = ls ∧ d.passed = c.passed ++ [line] := by
  obtain ⟨d, hs, hd⟩ := Cursor.shift_of_ahead_cons h
  exact ⟨d, by simp [readSingle, hs], hd⟩

theorem takeBody_isInside {c : Cursor} {line : Text} {ls : List Text} (h : c.ahead = line :: ls) :
    ∃ d, c.takeBody isFieldLine = .ok (line :: ls.takeWhile isInside, d) ∧
      d.ahead = ls.dropWhile isInside ∧ d.passed = c.passed ++ line :: ls.takeWhile isInside :=
  Cursor.takeBody_eq isFieldLine h

theorem readFolded_eq (tag : Option Text) {c : Cursor} {line : Text} {ls : List Text}
    (h : c.ahead = line :: ls) :
    ∃ d, readFolded tag isFieldLine c = .ok (folded tag (line :: ls.takeWhile isInside), d) ∧
      d.ahead = ls.dropWhile isInside ∧ d.passed = c.passed ++ line :: ls.takeWhile isInside := by
  obtain ⟨d, hb, hd⟩ := takeBody_isInside h
  exact ⟨d, by simp only [readFolded, hb], hd⟩

theorem isInside_eq_false {line : Text} : isInside line = false ↔ isFieldLine line = true := by
  simp [isInside]

theorem readBlocks_eq (c : Cursor) :
    ∃ d, readBlocks c = .ok (if (c.ahead.takeWhile isInside).isEmpty then []
        else codeBlocks (verbatim none (c.ahead.takeWhile isInside)), d) ∧
      d.ahead = c.ahead.dropWhile isInside ∧ d.passed = c.passed ++ c.ahead.takeWhile isInside := by
  unfold readBlocks
  rw [Cursor.peek?_eq_head?]
  cases hc : c.ahead with
  | nil => exact ⟨c, rfl, hc, by simp⟩
  | cons line ls =>
    by_cases hl : isFieldLine line = true
    · have hi : isInside line = false := isInside_eq_false.mpr hl
      exact ⟨c, by simp [hl, hi], by simp [hi, hc], by simp [hi]⟩
    · -- the guard has seen that the first line, which is taken unseen, begins no field
      have hi : isInside line = true := by simpa [isInside] using hl
      obtain ⟨d, hb, hahead, hpassed⟩ := takeBody_isInside hc
      refine ⟨d, ?_, ?_, ?_⟩
      · simp [hl, readVerbatim, hb, hi]
      · rw [hahead, List.dropWhile_cons_of_pos hi]
      · rw [hpassed, List.takeWhile_cons_of_pos hi]

/-- **One field.** Read from a line on, a field says what its lines up to the next field line say,
and the cursor stops at that line or, if the value is on one line, right behind it. -/
theorem read_eq (f : Field) {c : Cursor} {line : Text} {ls : List Text} (h : c.ahead = line :: ls) :
    ∃ d, f.read c = .ok (f.entry line (ls.takeWhile isInside), d) ∧
      d.ahead = (if f.takesBody then ls.dropWhile isInside else ls) ∧
      d.passed = c.passed ++ line :: (if f.takesBody then ls.takeWhile isInside else []) := by
  have hsingle := readSingle_eq f.tag h
  have hfolded := readFolded_eq (some f.tag) h
  cases f with
  | name | parameter =>
    obtain ⟨d, hr, ha, hp⟩ := hsingle
    exact ⟨d, by simp only [read, hr, entry], ha, hp⟩
  | description | todo =>
    obtain ⟨d, hr, ha, hp⟩ := hfolded
    exact ⟨d, by simp only [read, hr, entry], ha, hp⟩
  | usage =>
    obtain ⟨next, hr, ha, hp⟩ := hsingle
    obtain ⟨d, hb, hahead, hpassed⟩ := readBlocks_eq next
    rw [ha] at hb hahead hpassed
    refine ⟨d, by simp only [read, hr, hb, entry], hahead, ?_⟩
    rw [hpassed, hp]; simp [takesBody]
  | metadata =>
    obtain ⟨d, hr, ha, hp⟩ := hsingle
    exact ⟨d, by simp only [read, readPair, hr, entry], ha, hp⟩

end Field

/-! ## Chunks -/

structure Chunk where
  field : Field
  head : Text
  body : List Text
  begins : Field.ofLine? head = some field
  inside : ∀ line ∈ body, Field.isInside line = true

namespace Chunk

def lines (k : Chunk) : List Text := k.head :: k.body

/-- Cuts lines at every field line; the lines before the first are dropped. -/
def cut : List Text → List Chunk
  | [] => []
  | line :: ls =>
    match h : Field.ofLine? line with
    | none => cut ls
    | some f => ⟨f, line, ls.takeWhile Field.isInside, h, fun _ hm => List.mem_takeWhile_imp hm⟩ :: cut ls

theorem ext_of_lines {j k : Chunk} (h : j.lines = k.lines) : j = k := by
  obtain ⟨f, head, body, hb, hi⟩ := j
  obtain ⟨f', head', body', hb', hi'⟩ := k
  simp only [lines, List.cons.injEq] at h
  obtain ⟨rfl, rfl⟩ := h
  rw [hb] at hb'
  obtain rfl := Option.some.inj hb'
  rfl

theorem cut_cons_inside {line : Text} {ls : List Text} (h : Field.isInside line = true) :
    cut (line :: ls) = cut ls := by
  rw [cut]
  split
  · rfl
  · rename_i f hf
    simp [Field.isInside, Field.isFieldLine, hf] at h

theorem cut_cons_field {line : Text} {f : Field} (ls : List Text) (h : Field.ofLine? line = some f) :
    ∃ k : Chunk, cut (line :: ls) = k :: cut ls ∧ k.field = f ∧ k.head = line ∧
      k.body = ls.takeWhile Field.isInside := by
  rw [cut]
  split
  · rename_i hn
    rw [hn] at h; simp at h
  · rename_i f' hf
    rw [hf] at h
    exact ⟨_, rfl, Option.some.inj h, rfl, rfl⟩

theorem isInside_head (k : Chunk) : Field.isInside k.head = false := by
  simp [Field.isInside, Field.isFieldLine, k.begins]

theorem isInside_of_none {line : Text} (h : Field.ofLine? line = none) : Field.isInside line = true := by
  simp [Field.isInside, Field.isFieldLine, h]

theorem cut_dropWhile (ls : List Text) : cut (ls.dropWhile Field.isInside) = cut ls := by
  induction ls with
  | nil => rfl
  | cons line ls ih =>
    by_cases h : Field.isInside line = true
    · rw [List.dropWhile_cons_of_pos h, ih, cut_cons_inside h]
    · rw [List.dropWhile_cons_of_neg h]

theorem flatMap_lines_cut (ls : List Text) :
    (cut ls).flatMap lines = ls.dropWhile Field.isInside := by
  induction ls with
  | nil => rfl
  | cons line ls ih =>
    cases hf : Field.ofLine? line with
    | none =>
      have h := isInside_of_none hf
      rw [cut_cons_inside h, ih, List.dropWhile_cons_of_pos h]
    | some f =>
      obtain ⟨k, hk, _, hh, hb⟩ := cut_cons_field ls hf
      have h := k.isInside_head
      rw [hh] at h
      rw [hk, List.flatMap_cons, ih, lines, hh, hb, List.dropWhile_cons_of_neg (by simp [h])]
      simp

theorem lines_subset_of_mem_cut {ls : List Text} {k : Chunk} (h : k ∈ cut ls) : k.lines ⊆ ls := by
  intro line hl
  have hm : line ∈ (cut ls).flatMap lines := List.mem_flatMap.mpr ⟨k, h, hl⟩
  rw [flatMap_lines_cut] at hm
  exact (List.dropWhile_suffix _).subset hm

theorem takeWhile_flatMap_lines (ks : List Chunk) : (ks.flatMap lines).takeWhile Field.isInside = [] := by
  cases ks with
  | nil => rfl
  | cons k ks => simp [lines, k.isInside_head]

theorem takeWhile_body (k : Chunk) (ks : List Chunk) :
    (k.body ++ ks.flatMap lines).takeWhile Field.isInside = k.body := by
  rw [List.takeWhile_append_of_pos k.inside, takeWhile_flatMap_lines, List.append_nil]

theorem cut_flatMap_lines (ks : List Chunk) : cut (ks.flatMap lines) = ks := by
  induction ks with
  | nil => rfl
  | cons k ks ih =>
    obtain ⟨k', hk, _, hh, hb⟩ := cut_cons_field (k.body ++ ks.flatMap lines) k.begins
    rw [takeWhile_body] at hb
    have hlines : k'.lines = k.lines := by rw [lines, hh, hb, lines]
    have hskip : cut (k.body ++ ks.flatMap lines) = ks := by
      rw [← cut_dropWhile, List.dropWhile_append_of_pos k.inside, cut_dropWhile, ih]
    rw [List.flatMap_cons, lines, List.cons_append, hk, hskip, ext_of_lines hlines]

theorem eq_cut_iff (ks : List Chunk) (ls : List Text) :
    ks.flatMap lines = ls.dropWhile Field.isInside ↔ ks = cut ls := by
  constructor
  · intro h
    rw [← cut_flatMap_lines ks, h, cut_dropWhile]
  · rintro rfl
    exact flatMap_lines_cut ls

/-! ## Storing chunks -/

/-- What the reader of the chunk's field, on a cursor over the chunk's lines alone, makes of a
pattern. -/
def store (s : Settings) (k : Chunk) (p : Pattern) : Run ParseError Pattern :=
  match k.field.read (Cursor.ofLines k.lines) with
  | .error cause => .fail (.cursor cause)
  | .ok (entry, _) => entry.store s p

def changeLast (f : Pattern → Run ParseError Pattern) (ps : List Pattern) :
    Run ParseError (List Pattern) :=
  match ps.getLast? with
  | none => .done ps
  | some p => do
    let q ← f p
    return ps.dropLast ++ [q]

def step (s : Settings) (ps : List Pattern) (k : Chunk) : Run ParseError (List Pattern) :=
  changeLast (k.store s) (if k.field.opensPattern then ps ++ [.fresh] else ps)

/-- On a cursor with other chunks behind it, a chunk says what it says alone: the same lines are
passed, and what is left ahead is what its own reading leaves, with the other chunks behind it. -/
theorem read_shared (k : Chunk) (ks : List Chunk) {c : Cursor} (h : c.ahead = k.lines ++ ks.flatMap lines) :
    ∃ own shared, k.field.read (Cursor.ofLines k.lines) = .ok (k.field.entry k.head k.body, own) ∧
      k.field.read c = .ok (k.field.entry k.head k.body, shared) ∧
      shared.ahead = own.ahead ++ ks.flatMap lines ∧ shared.passed = c.passed ++ own.passed ∧
      own.passed ++ own.ahead = k.lines ∧ (k.field.takesBody = true → own.ahead = []) := by
  have hb : k.body.takeWhile Field.isInside = k.body := List.takeWhile_eq_self_iff.mpr k.inside
  have hd : k.body.dropWhile Field.isInside = [] := List.dropWhile_eq_nil_iff.mpr k.inside
  have hd' : (k.body ++ ks.flatMap lines).dropWhile Field.isInside = ks.flatMap lines := by
    rw [List.dropWhile_append_of_pos k.inside]
    conv => rhs; rw [← List.takeWhile_append_dropWhile (p := Field.isInside) (l := ks.flatMap lines)]
    rw [takeWhile_flatMap_lines]; rfl
  obtain ⟨own, hown, ha, hp⟩ := Field.read_eq k.field (Cursor.ahead_ofLines k.lines)
  have h' : c.ahead = k.head :: (k.body ++ ks.flatMap lines) := h
  obtain ⟨shared, hshared, ha', hp'⟩ := Field.read_eq k.field h'
  rw [hb] at hown
  rw [takeWhile_body] at hshared
  refine ⟨own, shared, hown, hshared, ?_, ?_, ?_, ?_⟩
  · rw [ha, ha', hd, hd']
    split <;> rfl
  · rw [hp, hp', hb, takeWhile_body]
    rfl
  · rw [ha, hp, hb, hd]
    split <;> simp [Cursor.passed, Cursor.ofLines, lines]
  · intro ht
    rw [ha, if_pos ht, hd]

def content (k : Chunk) : Entry := k.field.entry k.head k.body

theorem store_eq (s : Settings) (k : Chunk) (p : Pattern) :
    k.store s p = (k.field.entry k.head k.body).store s p := by
  obtain ⟨own, _, hown, _⟩ := read_shared k [] (c := Cursor.ofLines k.lines) (by simp [Cursor.ahead_ofLines])
  rw [store, hown]

/-! ## The scan over chunks -/

def scan (s : Settings) (current : Option Pattern) : List Chunk → Run ParseError (List Pattern)
  | [] => .done current.toList
  | k :: ks =>
    match if k.field.opensPattern then some .fresh else current with
    | none => do
      Run.note (.outsidePattern k.field) ()
      scan s none ks
    | some p => do
      let p ← k.store s p
      let ps ← scan s (some p) ks
      return (if k.field.opensPattern then current.toList else []) ++ ps

theorem cut_ahead_of_read {f : Field} {c d : Cursor} {line : Text} {ls : List Text} {e : Entry}
    (hc : c.ahead = line :: ls) (hr : f.read c = .ok (e, d)) :
    e = f.entry line (ls.takeWhile Field.isInside) ∧ cut d.ahead = cut ls := by
  obtain ⟨d', hr', ha, _⟩ := Field.read_eq f hc
  rw [hr] at hr'
  simp only [Except.ok.injEq, Prod.mk.injEq] at hr'
  obtain ⟨rfl, rfl⟩ := hr'
  refine ⟨rfl, ?_⟩
  rw [ha]
  split
  · exact cut_dropWhile ls
  · rfl

/-- **The loop over the cursor is the loop over the chunks ahead.** -/
theorem scan_eq (s : Settings) (current : Option Pattern) (c : Cursor) :
    Block.scan s current c = scan s current (cut c.ahead) := by
  fun_induction Block.scan s current c with
  | case1 current c e hs =>
    rw [Cursor.ahead_of_shift_error hs]; rfl
  | case2 current c line next hs hf ih =>
    rw [ih, Cursor.ahead_of_shift hs, cut_cons_inside (isInside_of_none hf)]
  | case3 current c line next hs f hf hn ih =>
    obtain ⟨k, hk, rfl, _, _⟩ := cut_cons_field next.ahead hf
    rw [dite_eq_ite, Pattern.fresh_eq] at hn
    rw [Cursor.ahead_of_shift hs, hk, scan, hn, ih]
  | case4 current c line next hs f hf p hp cause hr =>
    obtain ⟨d, hr', _⟩ := Field.read_eq f (Cursor.ahead_of_shift hs)
    rw [hr'] at hr
    simp at hr
  | case5 current c line next hs f hf p hp e rest hr ih =>
    have hahead := Cursor.ahead_of_shift hs
    obtain ⟨rfl, hcut⟩ := cut_ahead_of_read hahead hr
    obtain ⟨k, hk, rfl, hh, hb⟩ := cut_cons_field next.ahead hf
    rw [dite_eq_ite, Pattern.fresh_eq] at hp
    rw [hahead, hk, scan, hp]
    simp only [ih, hcut, store_eq, hh, hb]

theorem scan_continuing (s : Settings) : ∀ {ks : List Chunk}, (∀ k ∈ ks, k.field.opensPattern = false) →
    ∀ p : Pattern, scan s (some p) ks = do
      let q ← ks.foldlM (fun p k => k.store s p) p
      return [q]
  | [], _, p => rfl
  | k :: ks, h, p => by
    have ih := scan_continuing s fun k' hk => h k' (List.mem_cons_of_mem k hk)
    rw [scan, List.foldlM_cons, bind_assoc]
    simp [h k (List.mem_cons_self ..), ih]

/-! ## The scan as a fold -/

def continues (k : Chunk) : Bool := !k.field.opensPattern

theorem changeLast_concat (f : Pattern → Run ParseError Pattern) (ps : List Pattern) (p : Pattern) :
    changeLast f (ps ++ [p]) = do
      let q ← f p
      return ps ++ [q] := by
  simp [changeLast]

/-- With a pattern open, the fold does not look at those before it. -/
theorem foldlM_step_eq (s : Settings) (ks : List Chunk) : ∀ (ps : List Pattern) (p : Pattern),
    ks.foldlM (step s) (ps ++ [p]) = do
      let qs ← scan s (some p) ks
      return ps ++ qs := by
  induction ks with
  | nil => intro ps p; rfl
  | cons k ks ih =>
    intro ps p
    rw [List.foldlM_cons, step, scan]
    by_cases ho : k.field.opensPattern = true
    · simp only [ho, if_true, changeLast_concat, bind_assoc, pure_bind]
      congr 1; funext q
      rw [ih (ps ++ [p]) q]
      simp
    · simp only [ho, Bool.false_eq_true, if_false, changeLast_concat, bind_assoc, pure_bind]
      congr 1; funext q
      rw [ih ps q]
      simp

theorem scan_none (s : Settings) (ks : List Chunk) :
    scan s none ks =
      ((ks.dropWhile continues).foldlM (step s) []).after
        ((ks.takeWhile continues).map fun k => .outsidePattern k.field) := by
  induction ks with
  | nil => rfl
  | cons k ks ih =>
    rw [scan]
    by_cases ho : k.field.opensPattern = true
    · have hk : k.continues = false := by simp [continues, ho]
      rw [List.dropWhile_cons_of_neg (by simp [hk]), List.takeWhile_cons_of_neg (by simp [hk]),
        List.foldlM_cons, step]
      simp only [ho, if_true, List.nil_append]
      rw [show [Pattern.fresh] = [] ++ [.fresh] from rfl, changeLast_concat]
      simp only [bind_assoc, pure_bind, foldlM_step_eq]
      simp [Run.after]
    · have hk : k.continues = true := by simp [continues, ho]
      rw [List.dropWhile_cons_of_pos hk, List.takeWhile_cons_of_pos hk]
      simp only [ho, Bool.false_eq_true, if_false, ih]
      rfl

def ofHead {f : Field} {head : Text} (h : Field.ofLine? head = some f) : Chunk := ⟨f, head, [], h, by simp⟩

def firstLine (k : Chunk) : Chunk := ofHead k.begins

theorem store_firstLine (s : Settings) (k : Chunk) (p : Pattern) (h : k.field.takesBody = false) :
    k.store s p = k.firstLine.store s p := by
  have he : k.field.entry k.head k.body = k.field.entry k.head [] := by
    cases hf : k.field with
    | name | parameter | metadata => simp only [Field.entry]
    | description | usage | todo => simp [hf, Field.takesBody] at h
  rw [store_eq, store_eq, he]
  rfl

/-- **A block is the fold of its chunks.** The chunks before the first name are passed over, each
with a notice; the others are stored one after the other on the pattern opened last. A name, parameter
or metadata chunk says what its first line says. No reader passes a line of another chunk, and the
other readers pass every line of their own. -/
theorem patterns_eq_fold (s : Settings) (body : Text) :
    (∀ ks : List Chunk,
      ks.flatMap lines = (Text.lines body).dropWhile Field.isInside ↔ ks = cut (Text.lines body)) ∧
    Block.patterns s body =
      (((cut (Text.lines body)).dropWhile continues).foldlM (step s) []).after
        (((cut (Text.lines body)).takeWhile continues).map fun k => .outsidePattern k.field) ∧
    (∀ (k : Chunk) (p : Pattern), k.field ∈ [.name, .parameter, .metadata] →
      k.store s p = k.firstLine.store s p) ∧
    ∀ (k : Chunk) (ks : List Chunk) (c : Cursor), c.ahead = k.lines ++ ks.flatMap lines →
      ∃ entry own shared, k.field.read (Cursor.ofLines k.lines) = .ok (entry, own) ∧
        k.field.read c = .ok (entry, shared) ∧
        shared.ahead = own.ahead ++ ks.flatMap lines ∧ shared.passed = c.passed ++ own.passed ∧
        own.passed ++ own.ahead = k.lines ∧
        (k.field ∈ [.description, .usage, .todo] → own.ahead = []) := by
  refine ⟨fun ks => eq_cut_iff ks _, ?_, fun k p hk => ?_, fun k ks c hc => ?_⟩
  · rw [Block.patterns, scan_eq, Cursor.ahead_ofText, scan_none]
  · apply store_firstLine
    simp only [List.mem_cons, List.not_mem_nil, or_false] at hk
    rcases hk with hk | hk | hk <;> rw [hk] <;> rfl
  · obtain ⟨own, shared, hown, hshared, ha, hp, hl, ht⟩ := read_shared k ks hc
    refine ⟨_, own, shared, hown, hshared, ha, hp, hl, fun hk => ht ?_⟩
    simp only [List.mem_cons, List.not_mem_nil, or_false] at hk
    rcases hk with hk | hk | hk <;> rw [hk] <;> rfl

def usageChunk : Chunk where
  field := .usage
  head := ['@', 'e', 'x', 'a', 'm', 'p', 'l', 'e']
  body := [['x'], ['*']]
  begins := by decide +kernel
  inside := by decide +kernel

def openingChunk : Chunk where
  field := .name
  head := ['*', '@', 'p', 'a', 't', 't', 'e', 'r', 'n', ' ', 'a']
  body := [['b']]
  begins := by decide +kernel
  inside := by decide +kernel

/-- An example with a name behind it, on one cursor. -/
theorem patterns_eq_fold_usage :
    openingChunk.store {} .fresh = openingChunk.firstLine.store {} .fresh ∧
    ∃ entry own shared, Field.usage.read (Cursor.ofLines usageChunk.lines) = .ok (entry, own) ∧
      Field.usage.read (Cursor.ofLines (usageChunk.lines ++ [openingChunk].flatMap lines)) = .ok (entry, shared) ∧
      own.ahead = [] ∧ shared.ahead = openingChunk.lines := by
  obtain ⟨_, _, hfirst, hshared⟩ := patterns_eq_fold {} []
  obtain ⟨entry, own, shared, hown, hread, ha, _, _, hall⟩ :=
    hshared usageChunk [openingChunk] _ (Cursor.ahead_ofLines _)
  have hnil : own.ahead = [] := hall (by decide)
  refine ⟨hfirst openingChunk .fresh (by decide), entry, own, shared, hown, hread, hnil, ?_⟩
  rw [ha, hnil]
  simp

end Chunk

end PatternBook
