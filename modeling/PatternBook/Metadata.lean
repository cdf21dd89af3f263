import PatternBook.Assoc
import PatternBook.Text.Basic

/-!
# Metadata

A key holds one text, which the next replaces, or a list of texts, which grows. An incoming list is
appended to what is there, a single text becoming the first of the list. Keys keep the order in
which they were first given.
-/

namespace PatternBook

inductive MetaValue where
  | single (value : Text)
  | many (values : List Text)
deriving DecidableEq

/-- The value of a key that held `current` after `incoming` is given to it. -/
def MetaValue.combine (current : Option MetaValue) (incoming : MetaValue) : MetaValue :=
  match incoming, current with
  | many new, some (many old) => many (old ++ new)
  | many new, some (single old) => many (old :: new)
  | incoming, _ => incoming

structure Metadata where
  entries : List (Text × MetaValue) := []
  nodup : (Assoc.keys entries).Nodup := by simp [Assoc.keys]
deriving DecidableEq

namespace Metadata

def empty : Metadata := {}

def keys (m : Metadata) : List Text := Assoc.keys m.entries

def get? (m : Metadata) (key : Text) : Option MetaValue := Assoc.get? key m.entries

def insert (m : Metadata) (key : Text) (value : MetaValue) : Metadata :=
  ⟨Assoc.insert key value m.entries, Assoc.nodup_insert m.nodup⟩

/-- Combines the value with what the key holds. -/
def give (m : Metadata) (key : Text) (value : MetaValue) : Metadata :=
  m.insert key (MetaValue.combine (m.get? key) value)

def set (m : Metadata) (key value : Text) : Metadata := m.give key (.single value)

def append (m : Metadata) (key value : Text) : Metadata := m.give key (.many [value])

def merge (m n : Metadata) : Metadata := n.entries.foldl (fun m e => m.give e.1 e.2) m

def ofList (entries : List (Text × MetaValue)) : Metadata :=
  entries.foldl (fun m e => m.insert e.1 e.2) empty

end Metadata

end PatternBook
