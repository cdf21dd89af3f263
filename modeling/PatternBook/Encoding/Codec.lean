import PatternBook.Encoding.Decode

/-!
# Codecs

Which names of encodings there are is for the machine to say, and what is done with a name depends
only on its codec. All that is taken for granted is UTF-8 under its usual name.
-/

namespace PatternBook

/-- Not every codec reads texts: some turn bytes into bytes or text into text. -/
inductive Codec where
  | text (decode : Bytes → Encoding.Decoded)
  | transform

structure Codecs where
  lookup : Text → Option Codec
  lookup_utf8 : lookup Encoding.utf8Name = some (.text Encoding.decodeUtf8)

namespace Encoding

def codec : Encoding → Codec
  | ascii => .text (decodeTable "ascii" "ordinal not in range(128)" asciiChar 0)
  | latin1 => .text (decodeTable "latin-1" "" latin1Char 0)
  | latin9 => .text (decodeTable "charmap" "character maps to <undefined>" latin9Char 0)
  | windows1252 => .text (decodeTable "charmap" "character maps to <undefined>" windows1252Char 0)
  | utf8 => .text decodeUtf8
  | utf8Signed => .text decodeUtf8Signed
  | utf16 => .text decodeUtf16
  | utf16le => .text (decodeUtf16From .little 0)
  | utf16be => .text (decodeUtf16From .big 0)
  | utf32 => .text decodeUtf32
  | utf32le => .text (decodeUtf32From .little 0)
  | utf32be => .text (decodeUtf32From .big 0)
  | rot13 | hex => .transform

theorem ofName?_utf8Name : ofName? utf8Name = some utf8 := by decide

end Encoding

/-- The codecs of the encodings that are named here. -/
def Codecs.standard : Codecs where
  lookup name := (Encoding.ofName? name).map Encoding.codec
  lookup_utf8 := congrArg (Option.map Encoding.codec) Encoding.ofName?_utf8Name

end PatternBook
