import PatternBook.Tag

/-!
# Fields

A line begins a field if one of the six tags stands at its front.
-/

namespace PatternBook

inductive Field where
  | name
  | description
  | parameter
  | usage
  | metadata
  | todo
deriving DecidableEq

namespace Field

def all : List Field := [name, description, parameter, usage, metadata, todo]

def tag : Field → Text
  | name => ['@', 'p', 'a', 't', 't', 'e', 'r', 'n']
  | description => ['@', 'd', 'e', 's', 'c', 'r', 'i', 'p', 't', 'i', 'o', 'n']
  | parameter => ['@', 'p', 'a', 'r', 'a', 'm']
  | usage => ['@', 'e', 'x', 'a', 'm', 'p', 'l', 'e']
  | metadata => ['@', 'm', 'e', 't', 'a']
  | todo => ['@', 't', 'o', 'd', 'o']

def opensPattern (f : Field) : Bool := f == name

def begins (f : Field) (line : Text) : Bool := (Tag.after? f.tag line).isSome

/-- The first field, in the order of `all`, that the line begins. -/
def ofLine? (line : Text) : Option Field := all.find? fun f => f.begins line

def isFieldLine (line : Text) : Bool := (ofLine? line).isSome

end Field

end PatternBook
