import PatternBook.Text.Basic

/-!
# Names of encodings

A name is compared by its letters, digits and dots, without regard to case; every run of other
characters between them counts as one low line. Where no name fits, dots count as low lines too.
-/

namespace PatternBook

inductive Encoding where
  | ascii
  | latin1
  | latin9
  | windows1252
  | utf8
  | utf8Signed
  | utf16
  | utf16le
  | utf16be
  | utf32
  | utf32le
  | utf32be
  | rot13
  | hex
deriving DecidableEq

namespace Encoding

def isLetterOrDigit (c : Char) : Bool :=
  ('a' ≤ c && c ≤ 'z') || ('A' ≤ c && c ≤ 'Z') || ('0' ≤ c && c ≤ '9')

/-- `gap` says that a run of other characters stands before the rest, `begun` that something
stands before that run. -/
def canonicalFrom (gap begun : Bool) : Text → Text
  | [] => []
  | c :: s =>
    if isLetterOrDigit c || c = '.' then
      (if gap && begun then ['_'] else []) ++ c.toLower :: canonicalFrom false true s
    else canonicalFrom true begun s

def canonical (name : Text) : Text := canonicalFrom false false name

def aliases : List (String × Encoding) :=
  [("646", ascii), ("ansi_x3.4_1968", ascii), ("ansi_x3_4_1968", ascii), ("ansi_x3.4_1986", ascii),
   ("cp367", ascii), ("csascii", ascii), ("ibm367", ascii), ("iso646_us", ascii),
   ("iso_646.irv_1991", ascii), ("iso_ir_6", ascii), ("us", ascii), ("us_ascii", ascii),
   ("8859", latin1), ("cp819", latin1), ("csisolatin1", latin1), ("ibm819", latin1),
   ("iso8859", latin1), ("iso8859_1", latin1), ("iso_8859_1", latin1), ("iso_8859_1_1987", latin1),
   ("iso_ir_100", latin1), ("l1", latin1), ("latin", latin1), ("latin1", latin1),
   ("iso_8859_15", latin9), ("l9", latin9), ("latin9", latin9),
   ("1252", windows1252), ("windows_1252", windows1252),
   ("u8", utf8), ("utf", utf8), ("utf8", utf8), ("utf8_ucs2", utf8), ("utf8_ucs4", utf8),
   ("cp65001", utf8),
   ("u16", utf16), ("utf16", utf16), ("unicodelittleunmarked", utf16le), ("utf_16le", utf16le),
   ("unicodebigunmarked", utf16be), ("utf_16be", utf16be),
   ("u32", utf32), ("utf32", utf32), ("utf_32le", utf32le), ("utf_32be", utf32be),
   ("rot13", rot13), ("hex", hex)]

def properNames : List (String × Encoding) :=
  [("ascii", ascii), ("latin_1", latin1), ("iso8859_15", latin9), ("cp1252", windows1252),
   ("utf_8", utf8), ("utf_8_sig", utf8Signed), ("utf_16", utf16), ("utf_16_le", utf16le),
   ("utf_16_be", utf16be), ("utf_32", utf32), ("utf_32_le", utf32le), ("utf_32_be", utf32be),
   ("rot_13", rot13), ("hex_codec", hex)]

def find? (table : List (String × Encoding)) (name : Text) : Option Encoding :=
  (table.find? fun e => e.1.toList = name).map Prod.snd

def ofName? (name : Text) : Option Encoding :=
  let plain := canonical name
  let undotted := plain.map fun c => if c = '.' then '_' else c
  (find? aliases plain).or ((find? aliases undotted).or (find? properNames plain))

/-- The usual name of UTF-8. -/
def utf8Name : Text := ['u', 't', 'f', '-', '8']

end Encoding

end PatternBook
