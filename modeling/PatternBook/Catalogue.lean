import PatternBook.Disk
import PatternBook.Settings.File
import PatternBook.Source

/-!
# Catalogues

The merged patterns of several files, read in order. For each file that is read a notice tells how
many patterns it holds.
-/

namespace PatternBook

inductive Fault where
  | parse (cause : ParseError)
  | settings (cause : SettingsError)
  | reading (cause : ReadError)

namespace Fault

def ofLoadError : LoadError → Fault
  | .settings cause => settings cause
  | .reading cause => reading cause

def message : Fault → String
  | parse cause => cause.message
  | settings cause => cause.message
  | reading cause => cause.message

end Fault

namespace Catalogue

section
variable (codecs : Codecs) (s : Settings) (d : Disk)

def partialsOfFile (p : Path) : Run Fault (List Pattern) := do
  let text ← Run.ofExcept ((d.readText codecs s.encoding p).mapError .reading)
  let ps ← (Source.partials s text).mapError .parse
  Run.note (.parsedFile ps.length p.toText) ps

def partials : List Path → Run Fault (List Pattern)
  | [] => .done []
  | p :: paths => do
    let ps ← partialsOfFile codecs s d p
    let qs ← partials paths
    return ps ++ qs

def patterns (paths : List Path) : Run Fault (List Pattern) := do
  let ps ← partials codecs s d paths
  return Pattern.merge ps

end

end Catalogue

end PatternBook
