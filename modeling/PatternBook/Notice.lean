import PatternBook.Field.Basic
import PatternBook.Number.Layout
import PatternBook.Parameter

/-!
# Notices

What is said about a reading besides its result, with the importance of it and the part of the
program that says it.
-/

namespace PatternBook

inductive Importance where
  | debug
  | info
  | warning
deriving DecidableEq

namespace Importance

def label : Importance → String
  | debug => "DEBUG"
  | info => "INFO"
  | warning => "WARNING"

end Importance

inductive Notice where
  | skippedParameter (cause : MalformedParameter)
  | ignoredMetadata (pattern : Text)
  | outsidePattern (field : Field)
  | parsedFile (patterns : Nat) (path : Text)
deriving DecidableEq

namespace Notice

def importance : Notice → Importance
  | skippedParameter _ => .warning
  | ignoredMetadata _ => .debug
  | outsidePattern _ => .debug
  | parsedFile _ _ => .info

def speaker : Notice → String
  | skippedParameter _ => "patterndoc.fields"
  | ignoredMetadata _ => "patterndoc.fields"
  | outsidePattern _ => "patterndoc.parser"
  | parsedFile _ _ => "patterndoc.api"

def message : Notice → String
  | skippedParameter cause => "Skipping parameter: " ++ cause.message
  | ignoredMetadata pattern =>
    "Ignoring @meta without a key/value pair in pattern '" ++ String.ofList pattern ++ "'"
  | outsidePattern field => "Skipping " ++ String.ofList field.tag ++ " outside of a pattern"
  | parsedFile patterns path =>
    "Parsed " ++ String.ofList (Text.ofNat patterns) ++ " pattern block(s) from "
      ++ String.ofList path

def line (n : Notice) : String := n.importance.label ++ " " ++ n.speaker ++ ": " ++ n.message

end Notice

end PatternBook
