import PatternBook.Notice

/-!
# Runs

A run has an outcome and the notices given on the way to it, also if it fails.
-/

namespace PatternBook

@[ext]
structure Run (ε α : Type) where
  notices : List Notice
  outcome : Except ε α

namespace Run

variable {ε ε' α β : Type}

def done (a : α) : Run ε α := ⟨[], .ok a⟩

def fail (e : ε) : Run ε α := ⟨[], .error e⟩

def note (n : Notice) (a : α) : Run ε α := ⟨[n], .ok a⟩

def ofExcept (x : Except ε α) : Run ε α := ⟨[], x⟩

def andThen (x : Run ε α) (f : α → Run ε β) : Run ε β :=
  match x.outcome with
  | .error e => ⟨x.notices, .error e⟩
  | .ok a => ⟨x.notices ++ (f a).notices, (f a).outcome⟩

def mapError (f : ε → ε') (x : Run ε α) : Run ε' α := ⟨x.notices, x.outcome.mapError f⟩

instance : Monad (Run ε) where
  pure := done
  bind := andThen

theorem andThen_assoc {γ : Type} (x : Run ε α) (f : α → Run ε β) (g : β → Run ε γ) :
    (x.andThen f).andThen g = x.andThen fun a => (f a).andThen g := by
  obtain ⟨notices, outcome⟩ := x
  cases outcome with
  | error e => rfl
  | ok a =>
    simp only [andThen]
    cases (f a).outcome with
    | error e => rfl
    | ok b => simp [List.append_assoc]

theorem andThen_done (x : Run ε α) : x.andThen done = x := by
  obtain ⟨notices, outcome⟩ := x
  cases outcome <;> simp [andThen, done]

theorem done_andThen (a : α) (f : α → Run ε β) : (done a).andThen f = f a := by
  simp [andThen, done]

instance : LawfulMonad (Run ε) :=
  LawfulMonad.mk' (Run ε) andThen_done done_andThen andThen_assoc

end Run

end PatternBook
