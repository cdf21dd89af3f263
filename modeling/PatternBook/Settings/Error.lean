import PatternBook.Datum.Basic
import PatternBook.Path

/-!
# Faults of settings

A value that is refused is written in the message. The last three are no faults of the settings but
of the message itself: keys can be listed only if they are texts, and ordered only if they are of
one kind, and a number can be too long to be written.
-/

namespace PatternBook

inductive SettingsError where
  | unknownKeys (keys : List Text)
  | notBoolean (name written : Text)
  | notKeys (written : Text)
  | notEncoding (written : Text)
  | unknownEncoding (name : Text)
  | missingFile (path : Path)
  | unknownFormat (suffix : Text)
  | unreadable (path : Path)
  | notMapping (path : Path)
  | keyNotText (position : Nat) (kind : String)
  | keysNotOrdered (left right : String)
  | numberTooLong
deriving DecidableEq

namespace SettingsError

/-- Whether the settings are at fault, and not the words of the message. -/
def isInvalidSetting : SettingsError → Bool
  | keyNotText _ _ | keysNotOrdered _ _ | numberTooLong => false
  | _ => true

/-- What a parser says of a text that it cannot read is left out. -/
def message : SettingsError → String
  | unknownKeys keys =>
    "Unknown configuration keys: " ++ String.ofList (Text.join [',', ' '] keys)
  | notBoolean name written =>
    "Invalid boolean for '" ++ String.ofList name ++ "': " ++ String.ofList written
  | notKeys written => "Invalid value for 'accumulate_meta_keys': " ++ String.ofList written
  | notEncoding written => "Invalid encoding: " ++ String.ofList written
  | unknownEncoding name => "Unknown encoding: " ++ String.ofList name
  | missingFile path => "Configuration file not found: " ++ String.ofList path.toText
  | unknownFormat suffix => "Unsupported configuration format: " ++ String.ofList suffix
  | unreadable path => "Failed to parse " ++ String.ofList path.toText ++ ": "
  | notMapping path =>
    "Configuration in " ++ String.ofList path.toText ++ " must be a mapping"
  | keyNotText position kind =>
    "sequence item " ++ String.ofList (Text.ofNat position) ++ ": expected str instance, "
      ++ kind ++ " found"
  | keysNotOrdered left right =>
    "'<' not supported between instances of '" ++ left ++ "' and '" ++ right ++ "'"
  | numberTooLong =>
    "Exceeds the limit (" ++ String.ofList (Text.ofNat Text.digitLimit) ++ " digits) for integer "
      ++ "string conversion; use sys.set_int_max_str_digits() to increase the limit"

end SettingsError

end PatternBook
