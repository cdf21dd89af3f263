import PatternBook.Fence
import PatternBook.Metadata
import PatternBook.Parameter

/-!
# Patterns

A pattern is what one block says of a name. Patterns of one name are merged: parameters and
examples in order, the first description that is not empty, and the metadata given one after the
other. Merged patterns stand in the order of their first mention.
-/

namespace PatternBook

structure Example where
  description : Text := []
  blocks : List CodeBlock := []
deriving DecidableEq

structure Pattern where
  name : Text := []
  description : Text := []
  parameters : List Parameter := []
  examples : List Example := []
  metadata : Metadata := {}
deriving DecidableEq

namespace Pattern

def addParameter (p : Pattern) (parameter : Parameter) : Pattern :=
  { p with parameters := p.parameters ++ [parameter] }

def addExample (p : Pattern) (e : Example) : Pattern := { p with examples := p.examples ++ [e] }

def setMeta (p : Pattern) (key value : Text) : Pattern :=
  { p with metadata := p.metadata.set key value }

def appendMeta (p : Pattern) (key value : Text) : Pattern :=
  { p with metadata := p.metadata.append key value }

/-- Takes up what another pattern says. -/
def join (p q : Pattern) : Pattern :=
  { p with
    description := if p.description.isEmpty then q.description else p.description
    parameters := p.parameters ++ q.parameters
    examples := p.examples ++ q.examples
    metadata := p.metadata.merge q.metadata }

/-- Joins a pattern to the one of its name, or adds it at the end. -/
def gather (merged : List Pattern) (p : Pattern) : List Pattern :=
  match merged with
  | [] => [({ name := p.name } : Pattern).join p]
  | q :: merged => if q.name = p.name then q.join p :: merged else q :: gather merged p

def merge (ps : List Pattern) : List Pattern := ps.foldl gather []

end Pattern

end PatternBook
