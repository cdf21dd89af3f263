import PatternBook.Disk
import PatternBook.Json.Reader
import PatternBook.Settings.OfDatum
import PatternBook.Yaml.Reader

/-!
# Settings files

A file holds a mapping in YAML or JSON, as its suffix says. The settings are its entries, or those
of its section for this program, if that is a mapping.
-/

namespace PatternBook

inductive LoadError where
  | settings (cause : SettingsError)
  | reading (cause : ReadError)

namespace Settings

inductive Format where
  | yaml
  | json

def Format.ofSuffix? (suffix : Text) : Option Format :=
  let suffix := suffix.map Char.toLower
  if suffix = ".yaml".toList || suffix = ".yml".toList then some .yaml
  else if suffix = ".json".toList then some .json
  else none

def Format.read? (format : Format) (s : Text) : Option Datum :=
  match format with
  | .yaml => Yaml.read? s
  | .json => (Json.read? s).map Datum.ofJson

def sectionKey : Text := "patterndoc".toList

/-- The entries of the section, if there is one, or else of the whole. -/
def chooseSection (entries : List (Scalar × Datum)) : List (Scalar × Datum) :=
  match Datum.lookup? sectionKey entries with
  | some (.mapping inner) => inner
  | _ => entries

/-- The entries of a file's text; nothing at all is an empty mapping. -/
def parseFile (p : Path) (s : Text) : Except SettingsError (List (Scalar × Datum)) :=
  match Format.ofSuffix? p.suffix with
  | none => .error (.unknownFormat p.suffix)
  | some format =>
    match format.read? s with
    | none => .error (.unreadable p)
    | some (.scalar .null) => .ok []
    | some (.mapping entries) => .ok entries
    | some _ => .error (.notMapping p)

def ofFile (codecs : Codecs) (d : Disk) (p : Path) : Except LoadError Settings := do
  if !d.contains p then .error (.settings (.missingFile p))
  let text ← (d.readText codecs Encoding.utf8Name p).mapError .reading
  let entries ← (parseFile p text).mapError .settings
  (ofEntries codecs (chooseSection entries)).mapError .settings

end Settings

end PatternBook
