import PatternBook.Encoding.Name
import PatternBook.Number.Layout
import PatternBook.Text.Quoted

/-!
# Decoding

Bytes become text, or an error that names the bytes at fault and their place. A mark at the front
of UTF-16 or UTF-32 text decides the order of its bytes and is dropped, as is one mark in front of
signed UTF-8. Line breaks of all three kinds become one.
-/

namespace PatternBook

abbrev Bytes := List UInt8

/-- The bytes from `start` up to `stop` cannot be decoded; `byte` is the first of them. -/
structure BadBytes where
  codec : String
  start : Nat
  stop : Nat
  byte : UInt8
  reason : String
deriving DecidableEq

inductive DecodeError where
  | badBytes (cause : BadBytes)
  | other (reason : String)
deriving DecidableEq

namespace DecodeError

def message : DecodeError → String
  | badBytes e =>
    let place :=
      if e.stop = e.start + 1 then
        "byte 0x" ++ String.ofList (Text.hex 2 e.byte.toNat) ++ " in position "
          ++ String.ofList (Text.ofNat e.start)
      else
        "bytes in position " ++ String.ofList (Text.ofNat e.start) ++ "-"
          ++ String.ofList (Text.ofNat (e.stop - 1))
    "'" ++ e.codec ++ "' codec can't decode " ++ place ++ ": " ++ e.reason
  | other reason => reason

end DecodeError

namespace Encoding

abbrev Decoded := Except DecodeError Text

def bad (codec : String) (start stop : Nat) (byte : UInt8) (reason : String) : Decoded :=
  .error (.badBytes ⟨codec, start, stop, byte, reason⟩)

def followedBy (c : Char) (rest : Decoded) : Decoded := rest.map (c :: ·)

/-! ## One byte for each character -/

/-- Decodes by a table; a byte without a character is an error. -/
def decodeTable (codec reason : String) (table : UInt8 → Option Char) (pos : Nat) : Bytes → Decoded
  | [] => .ok []
  | b :: bs =>
    match table b with
    | some c => followedBy c (decodeTable codec reason table (pos + 1) bs)
    | none => bad codec pos (pos + 1) b reason

def asciiChar (b : UInt8) : Option Char := if b < 0x80 then some (Char.ofNat b.toNat) else none

def latin1Char (b : UInt8) : Option Char := some (Char.ofNat b.toNat)

def latin9Exceptions : List (UInt8 × Char) :=
  [(0xA4, '€'), (0xA6, 'Š'), (0xA8, 'š'), (0xB4, 'Ž'), (0xB8, 'ž'), (0xBC, 'Œ'), (0xBD, 'œ'),
   (0xBE, 'Ÿ')]

def latin9Char (b : UInt8) : Option Char := (latin9Exceptions.lookup b).or (latin1Char b)

def windows1252Exceptions : List (UInt8 × Char) :=
  [(0x80, '€'), (0x82, '‚'), (0x83, 'ƒ'), (0x84, '„'), (0x85, '…'), (0x86, '†'), (0x87, '‡'),
   (0x88, 'ˆ'), (0x89, '‰'), (0x8A, 'Š'), (0x8B, '‹'), (0x8C, 'Œ'), (0x8E, 'Ž'), (0x91, '‘'),
   (0x92, '’'), (0x93, '“'), (0x94, '”'), (0x95, '•'), (0x96, '–'), (0x97, '—'), (0x98, '˜'),
   (0x99, '™'), (0x9A, 'š'), (0x9B, '›'), (0x9C, 'œ'), (0x9E, 'ž'), (0x9F, 'Ÿ')]

def windows1252Char (b : UInt8) : Option Char :=
  if 0x80 ≤ b && b < 0xA0 then windows1252Exceptions.lookup b else latin1Char b

/-! ## UTF-8 -/

/-- A character whose first bytes are read: where it begins, its first byte, its value so far, and
the ranges of the bytes that it still needs. -/
structure Pending where
  start : Nat
  lead : UInt8
  value : Nat
  owed : List (Nat × Nat)

/-- The bits of a first byte and the ranges of the bytes that follow it. -/
def utf8Lead? (b : Nat) : Option (Nat × List (Nat × Nat)) :=
  let tail := (0x80, 0xBF)
  if b < 0x80 then some (b, [])
  else if b < 0xC2 then none
  else if b < 0xE0 then some (b - 0xC0, [tail])
  else if b = 0xE0 then some (0, [(0xA0, 0xBF), tail])
  else if b = 0xED then some (0xD, [(0x80, 0x9F), tail])
  else if b < 0xF0 then some (b - 0xE0, [tail, tail])
  else if b = 0xF0 then some (0, [(0x90, 0xBF), tail, tail])
  else if b < 0xF4 then some (b - 0xF0, [tail, tail, tail])
  else if b = 0xF4 then some (4, [(0x80, 0x8F), tail, tail])
  else none

def decodeUtf8From (pos : Nat) (pending : Option Pending) : Bytes → Decoded
  | [] =>
    match pending with
    | none => .ok []
    | some p => bad "utf-8" p.start pos p.lead "unexpected end of data"
  | b :: bs =>
    match pending with
    | none =>
      match utf8Lead? b.toNat with
      | none => bad "utf-8" pos (pos + 1) b "invalid start byte"
      | some (value, []) => followedBy (Char.ofNat value) (decodeUtf8From (pos + 1) none bs)
      | some (value, owed) => decodeUtf8From (pos + 1) (some ⟨pos, b, value, owed⟩) bs
    | some p =>
      match p.owed with
      | [] => bad "utf-8" p.start pos p.lead "invalid continuation byte"
      | (lo, hi) :: owed =>
        if lo ≤ b.toNat && b.toNat ≤ hi then
          let value := p.value * 64 + (b.toNat - 0x80)
          if owed.isEmpty then followedBy (Char.ofNat value) (decodeUtf8From (pos + 1) none bs)
          else decodeUtf8From (pos + 1) (some { p with value, owed }) bs
        else bad "utf-8" p.start pos p.lead "invalid continuation byte"

def decodeUtf8 (bs : Bytes) : Decoded := decodeUtf8From 0 none bs

/-- Drops one mark; places are counted from behind it. The beginning of a mark alone is empty. -/
def decodeUtf8Signed : Bytes → Decoded
  | [] | [0xEF] | [0xEF, 0xBB] => .ok []
  | 0xEF :: 0xBB :: 0xBF :: bs => decodeUtf8 bs
  | bs => decodeUtf8 bs

/-! ## UTF-16 and UTF-32 -/

inductive ByteOrder where
  | little
  | big

def ByteOrder.suffix : ByteOrder → String
  | little => "-le"
  | big => "-be"

def ByteOrder.value (order : ByteOrder) (bs : Bytes) : Nat :=
  let significant := match order with
    | little => bs.reverse
    | big => bs
  significant.foldl (fun n b => n * 256 + b.toNat) 0

def isHigh (n : Nat) : Bool := 0xD800 ≤ n && n < 0xDC00

def isLow (n : Nat) : Bool := 0xDC00 ≤ n && n < 0xE000

def decodeUtf16From (order : ByteOrder) (pos : Nat) : Bytes → Decoded
  | [] => .ok []
  | [b] => bad ("utf-16" ++ order.suffix) pos (pos + 1) b "truncated data"
  | b :: b' :: bs =>
    let codec := "utf-16" ++ order.suffix
    let unit := order.value [b, b']
    if isLow unit then bad codec pos (pos + 2) b "illegal encoding"
    else if isHigh unit then
      match bs with
      | c :: c' :: bs =>
        let low := order.value [c, c']
        if isLow low then
          followedBy (Char.ofNat (0x10000 + (unit - 0xD800) * 0x400 + (low - 0xDC00)))
            (decodeUtf16From order (pos + 4) bs)
        else bad codec pos (pos + 2) b "illegal UTF-16 surrogate"
      | bs => bad codec pos (pos + 2 + bs.length) b "unexpected end of data"
    else followedBy (Char.ofNat unit) (decodeUtf16From order (pos + 2) bs)

def decodeUtf32From (order : ByteOrder) (pos : Nat) : Bytes → Decoded
  | [] => .ok []
  | b₀ :: b₁ :: b₂ :: b₃ :: bs =>
    let codec := "utf-32" ++ order.suffix
    let value := order.value [b₀, b₁, b₂, b₃]
    if isHigh value || isLow value then
      bad codec pos (pos + 4) b₀ "code point in surrogate code point range"
    else if 0x110000 ≤ value then bad codec pos (pos + 4) b₀ "code point not in range(0x110000)"
    else followedBy (Char.ofNat value) (decodeUtf32From order (pos + 4) bs)
  | b :: bs => bad ("utf-32" ++ order.suffix) pos (pos + 1 + bs.length) b "truncated data"

/-- Text without a mark is refused, but errors in its bytes come first. -/
def unmarked (family : String) (width : Nat) (bs : Bytes) (decoded : Decoded) : Decoded :=
  match decoded with
  | .error e => .error e
  | .ok text =>
    if width ≤ bs.length then .error (.other (family ++ " stream does not start with BOM"))
    else .ok text

def decodeUtf16 : Bytes → Decoded
  | 0xFF :: 0xFE :: bs => decodeUtf16From .little 2 bs
  | 0xFE :: 0xFF :: bs => decodeUtf16From .big 2 bs
  | bs => unmarked "UTF-16" 2 bs (decodeUtf16From .little 0 bs)

def decodeUtf32 : Bytes → Decoded
  | 0xFF :: 0xFE :: 0x00 :: 0x00 :: bs => decodeUtf32From .little 4 bs
  | 0x00 :: 0x00 :: 0xFE :: 0xFF :: bs => decodeUtf32From .big 4 bs
  | bs => unmarked "UTF-32" 4 bs (decodeUtf32From .little 0 bs)

/-! ## Texts of files -/

/-- A carriage return, alone or before a line feed, becomes a line feed. -/
def unifyBreaks : Text → Text
  | [] => []
  | '\r' :: '\n' :: s => '\n' :: unifyBreaks s
  | c :: s => (if c = '\r' then '\n' else c) :: unifyBreaks s

/-- The UTF-8 bytes of a text. -/
def encodeUtf8 (s : Text) : Bytes := (String.ofList s).toUTF8.toList

end Encoding

end PatternBook
