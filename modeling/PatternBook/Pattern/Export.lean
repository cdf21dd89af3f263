import PatternBook.Json.Basic
import PatternBook.Json.Printer
import PatternBook.Pattern

/-!
# Patterns as JSON
-/

namespace PatternBook

def Json.ofOption : Option Text → Json
  | none => .null
  | some s => .text s

def Parameter.toJson (p : Parameter) : Json :=
  .object
    [("name".toList, .text p.name),
     ("type".toList, .text p.type),
     ("description".toList, .text p.description),
     ("default_value".toList, .ofOption p.default),
     ("optional".toList, .bool p.optional)]

def CodeBlock.toJson (b : CodeBlock) : Json :=
  .object [("syntax".toList, .ofOption b.syntaxName), ("code".toList, .text b.code)]

def Example.toJson (e : Example) : Json :=
  .object
    [("description".toList, .text e.description),
     ("code_blocks".toList, .array (e.blocks.map CodeBlock.toJson))]

def MetaValue.toJson : MetaValue → Json
  | single value => .text value
  | many values => .array (values.map .text)

def Metadata.toJson (m : Metadata) : Json :=
  .object (m.entries.map fun (key, value) => (key, value.toJson))

namespace Pattern

def toJson (p : Pattern) : Json :=
  .object
    [("name".toList, .text p.name),
     ("description".toList, .text p.description),
     ("parameters".toList, .array (p.parameters.map Parameter.toJson)),
     ("examples".toList, .array (p.examples.map Example.toJson)),
     ("metadata".toList, p.metadata.toJson)]

/-- The patterns as an array, on one line or indented. -/
def renderJson (indent : Option Nat) (ps : List Pattern) : Text :=
  Json.render indent (.array (ps.map toJson))

end Pattern

end PatternBook
