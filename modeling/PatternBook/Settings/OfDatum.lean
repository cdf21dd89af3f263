import PatternBook.Encoding.Codec
import PatternBook.Settings.Basic
import PatternBook.Settings.Error
import PatternBook.Text.Blank

/-!
# Settings from data

Unknown keys are refused first, then each known key is checked in turn. A key that is not given
keeps its default.
-/

namespace PatternBook.Settings

def strictKey : Text := "strict".toList

def accumulatingKey : Text := "accumulate_meta_keys".toList

def encodingKey : Text := "encoding".toList

def knownKeys : List Text := [strictKey, accumulatingKey, encodingKey]

/-! ## Unknown keys -/

def isNumber : Scalar → Bool
  | .bool _ | .int _ | .float _ => true
  | _ => false

/-- Two keys that can be ordered are texts or numbers. -/
def ordered (a b : Scalar) : Bool :=
  match a, b with
  | .text _, .text _ => true
  | a, b => isNumber a && isNumber b

/-- The value of a finite number in units of the least one. -/
def magnitude : Scalar → Int
  | .bool b => if b then Nat.pow 2 1074 else 0
  | .int n => n * Nat.pow 2 1074
  | .float (.finite negative mantissa exponent) =>
    let size : Int := mantissa * Nat.pow 2 (exponent + 1074).toNat
    if negative then -size else size
  | _ => 0

def below : Scalar → Scalar → Bool
  | .float .nan, _ | _, .float .nan => false
  | .float (.infinite negative), .float (.infinite negative') => negative && !negative'
  | .float (.infinite negative), _ => negative
  | _, .float (.infinite negative) => !negative
  | a, b => magnitude a < magnitude b

def smallest (k : Scalar) (ks : List Scalar) : Scalar :=
  ks.foldl (fun m x => if below x m then x else m) k

def textKeys? (ks : List Scalar) : Option (List Text) :=
  ks.mapM fun
    | .text s => some s
    | _ => none

/-- The error for keys none of which is known. -/
def unknownKeysError (k : Scalar) (ks : List Scalar) : SettingsError :=
  match textKeys? (k :: ks) with
  | some names => .unknownKeys (Text.sort names)
  | none =>
    match ks.find? fun x => !ordered k x with
    | some x => .keysNotOrdered x.kindName k.kindName
    | none => .keyNotText 0 (smallest k ks).kindName

def isKnown : Scalar → Bool
  | .text s => knownKeys.contains s
  | _ => false

def checkKeys (entries : List (Scalar × Datum)) : Except SettingsError Unit :=
  match (entries.map Prod.fst).filter fun k => !isKnown k with
  | [] => .ok ()
  | k :: ks => .error (unknownKeysError k ks)

/-! ## Values -/

def yesWords : List Text := ["true".toList, "yes".toList, "1".toList, "on".toList]

def noWords : List Text := ["false".toList, "no".toList, "0".toList, "off".toList]

/-- A fault with the value in its message. -/
def refused {α : Type} (fault : Text → SettingsError) (value : Datum) : Except SettingsError α :=
  match value.quoted? with
  | some written => .error (fault written)
  | none => .error .numberTooLong

/-- A truth value, or a word for one in any case. The words are ASCII, and no other character has
one of theirs as its lower case. -/
def toBool (name : Text) (value : Datum) : Except SettingsError Bool :=
  match value with
  | .scalar (.bool b) => .ok b
  | .scalar (.text s) =>
    let word := (Text.strip s).map Char.toLower
    if yesWords.contains word then .ok true
    else if noWords.contains word then .ok false
    else refused (.notBoolean name) value
  | _ => refused (.notBoolean name) value

/-- Inserts a key into an increasing list, unless it is there. -/
def insertSorted (key : Text) : List Text → List Text
  | [] => [key]
  | k :: ks =>
    if k = key then k :: ks
    else if Text.le key k then key :: k :: ks
    else k :: insertSorted key ks

def keySet (items : List Text) : List Text :=
  ((items.map Text.strip).filter fun key => !key.isEmpty).foldr insertSorted []

/-- A list of keys, or a text of keys with commas between them. -/
def toKeys (value : Datum) : Except SettingsError (List Text) :=
  match value with
  | .scalar (.text s) => .ok (keySet (Text.splitAt ',' s))
  | .list items =>
    match items.mapM Datum.plain? with
    | some names => .ok (keySet names)
    | none => .error .numberTooLong
  | _ => refused .notKeys value

/-- The name of an encoding, kept as it is written. -/
def toEncoding (codecs : Codecs) (value : Datum) : Except SettingsError Text :=
  match value with
  | .scalar (.text name) =>
    match codecs.lookup name with
    | some _ => .ok name
    | none => .error (.unknownEncoding name)
  | _ => refused .notEncoding value

/-- The checked value of a key, or its default. -/
def field {α : Type} (entries : List (Scalar × Datum)) (key : Text) (default : α)
    (check : Datum → Except SettingsError α) : Except SettingsError α :=
  match Datum.lookup? key entries with
  | none => .ok default
  | some value => check value

def ofEntries (codecs : Codecs) (entries : List (Scalar × Datum)) :
    Except SettingsError Settings := do
  checkKeys entries
  let base : Settings := {}
  let strict ← field entries strictKey base.strict (toBool strictKey)
  let accumulating ← field entries accumulatingKey base.accumulating toKeys
  let encoding ← field entries encodingKey base.encoding (toEncoding codecs)
  return { strict, accumulating, encoding }

/-- The settings as data, in the order of the keys above. -/
def toEntries (s : Settings) : List (Scalar × Datum) :=
  [(.text strictKey, .scalar (.bool s.strict)),
   (.text accumulatingKey, .list (s.accumulating.map Datum.text)),
   (.text encodingKey, .text s.encoding)]

/-! ## Environment variables -/

def environmentNames : List (Text × Text) :=
  [(strictKey, "PATTERNDOC_STRICT".toList),
   (accumulatingKey, "PATTERNDOC_ACCUMULATE_KEYS".toList),
   (encodingKey, "PATTERNDOC_ENCODING".toList)]

def ofEnvironment (codecs : Codecs) (get? : Text → Option Text) : Except SettingsError Settings :=
  ofEntries codecs (environmentNames.filterMap fun (key, name) =>
    (get? name).map fun value => (.text key, Datum.text value))

end PatternBook.Settings
