import PatternBook.Text.Printable

/-!
# Quoted texts

A text is quoted with apostrophes, or with quotation marks if it holds an apostrophe and no
quotation mark. The backslash, the quote in use and the line controls have short escapes, every
other character that is not printable is written by its code point.
-/

namespace PatternBook.Text

def hexDigit (n : Nat) : Char := Char.ofNat (if n < 10 then 48 + n else 87 + n)

/-- The lowest hexadecimal digits of a number, `width` of them. -/
def hex : Nat → Nat → Text
  | 0, _ => []
  | width + 1, n => hex width (n / 16) ++ [hexDigit (n % 16)]

/-- Two digits below 256, four below 65536, eight above. -/
def codeEscape (n : Nat) : Text :=
  if n < 0x100 then ['\\', 'x'] ++ hex 2 n
  else if n < 0x10000 then ['\\', 'u'] ++ hex 4 n
  else ['\\', 'U'] ++ hex 8 n

def quoteChar (quote c : Char) : Text :=
  if c = quote || c = '\\' then ['\\', c]
  else if c = '\n' then ['\\', 'n']
  else if c = '\r' then ['\\', 'r']
  else if c = '\t' then ['\\', 't']
  else if isPrintable c then [c]
  else codeEscape c.toNat

def quoteFor (s : Text) : Char := if s.contains '\'' && !s.contains '"' then '"' else '\''

def quoted (s : Text) : Text :=
  let quote := quoteFor s
  [quote] ++ s.flatMap (quoteChar quote) ++ [quote]

end PatternBook.Text
