import PatternBook.Catalogue
import PatternBook.CommandLine.Arguments
import PatternBook.Pattern.Export
import PatternBook.Summary

/-!
# What the command does

All files have to be there before anything else is looked at, then the format has to be known. The
settings come from a file if one is named, and else from the environment. Faults of the files, the
settings and the patterns are reported; others end the program.
-/

namespace PatternBook.CommandLine

inductive Ending where
  | usage
  | help
  | rejected (reason : String)
  | crashed (cause : Fault)
  | printed (text : Text)
  | saved (path : Path) (text : Text)

structure Outcome where
  notices : List Notice := []
  ending : Ending

/-- Faults that are reported to the user. -/
def isReported : Fault → Bool
  | .parse _ => true
  | .settings cause => cause.isInvalidSetting
  | .reading (.file _) => true
  | .reading (.decoding (.badBytes _)) => true
  | .reading _ => false

def endingOf (cause : Fault) : Ending :=
  if isReported cause then .rejected cause.message else .crashed cause

inductive Format where
  | console
  | json

def Format.ofName? (name : Text) : Option Format :=
  match String.ofList name with
  | "console" => some console
  | "json" => some json
  | _ => none

def settings (codecs : Codecs) (d : Disk) (env : Text → Option Text) (r : Request) :
    Except Fault Settings :=
  let base :=
    match r.config with
    | some path => (Settings.ofFile codecs d (Path.ofText path)).mapError Fault.ofLoadError
    | none => (Settings.ofEnvironment codecs env).mapError Fault.settings
  base.map fun s => if r.lenient then { s with strict := false } else s

def catalogue (codecs : Codecs) (d : Disk) (env : Text → Option Text) (r : Request) :
    Run Fault (List Pattern) := do
  let s ← Run.ofExcept (settings codecs d env r)
  Catalogue.patterns codecs s d (r.files.map Path.ofText)

def present (format : Format) (output : Option Text) (ps : List Pattern) : Ending :=
  match format, output with
  | .json, some path => .saved (Path.ofText path) (Pattern.renderJson (some 2) ps)
  | .json, none => .printed (Pattern.renderJson (some 2) ps ++ ['\n'])
  | .console, _ => .printed (Summary.render ps)

def isShown (verbose : Bool) (n : Notice) : Bool :=
  verbose || n.importance == .warning

def perform (codecs : Codecs) (d : Disk) (env : Text → Option Text) (r : Request) : Outcome :=
  match (r.files.map Path.ofText).find? fun p => !d.contains p with
  | some p => { ending := .rejected ("File not found: " ++ String.ofList p.toText) }
  | none =>
    match Format.ofName? r.format with
    | none => { ending := .rejected ("Unknown format: " ++ String.ofList r.format) }
    | some format =>
      let run := catalogue codecs d env r
      { notices := run.notices.filter (isShown r.verbose)
        ending :=
          match run.outcome with
          | .error cause => endingOf cause
          | .ok ps => present format r.output ps }

def run (codecs : Codecs) (d : Disk) (env : Text → Option Text) (args : List Text) : Outcome :=
  match readCommand? false args with
  | none => { ending := .usage }
  | some r => if r.help then { ending := .help } else perform codecs d env r

/-! ## What is written -/

def usageText : String :=
  "Usage: patterndoc parse [--format console|json] [--output FILE] [--config FILE]\n"
    ++ "                        [--lenient] [--verbose] FILES...\n"

def Ending.exitCode : Ending → Nat
  | usage => 2
  | rejected _ => 1
  | crashed _ => 1
  | help => 0
  | printed _ => 0
  | saved _ _ => 0

def Ending.standardOutput : Ending → String
  | help => usageText
  | printed text => String.ofList text
  | saved path _ => "Patterns written to " ++ String.ofList path.toText ++ "\n"
  | _ => ""

def Ending.standardError : Ending → String
  | usage => usageText
  | rejected reason => "Error: " ++ reason ++ "\n"
  | _ => ""

def Outcome.standardError (o : Outcome) : String :=
  String.join (o.notices.map fun n => n.line ++ "\n") ++ o.ending.standardError

end PatternBook.CommandLine
