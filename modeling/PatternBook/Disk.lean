import PatternBook.Encoding.Codec
import PatternBook.Path

/-!
# The disk

What a program can find out about files: each path leads to a file, to a directory, or nowhere. The
text of a file is read by the name of its encoding.
-/

namespace PatternBook

inductive Node where
  | file (bytes : Bytes)
  | directory
deriving DecidableEq

inductive FileProblem where
  | missing
  | isDirectory
  | notDirectory
deriving DecidableEq

structure FileError where
  problem : FileProblem
  path : Path
deriving DecidableEq

namespace FileError

def message (e : FileError) : String :=
  let cause :=
    match e.problem with
    | .missing => "[Errno 2] No such file or directory: "
    | .isDirectory => "[Errno 21] Is a directory: "
    | .notDirectory => "[Errno 20] Not a directory: "
  cause ++ String.ofList (Text.quoted e.path.toText)

end FileError

inductive ReadError where
  | file (cause : FileError)
  | unknownEncoding (name : Text)
  | notText (encoding : Text)
  | decoding (cause : DecodeError)
deriving DecidableEq

namespace ReadError

def message : ReadError → String
  | file cause => cause.message
  | unknownEncoding name => "unknown encoding: " ++ String.ofList name
  | notText encoding =>
    "'" ++ String.ofList encoding
      ++ "' is not a text encoding; use codecs.open() to handle arbitrary codecs"
  | decoding cause => cause.message

end ReadError

structure Disk where
  find : Path → Except FileProblem Node

namespace Disk

def contains (d : Disk) (p : Path) : Bool :=
  match d.find p with
  | .ok _ => true
  | .error _ => false

def readBytes (d : Disk) (p : Path) : Except FileError Bytes :=
  match d.find p with
  | .ok (.file bytes) => .ok bytes
  | .ok .directory => .error ⟨.isDirectory, p⟩
  | .error problem => .error ⟨problem, p⟩

/-- The text of a file. That the file is there is checked before its encoding. -/
def readText (codecs : Codecs) (encoding : Text) (d : Disk) (p : Path) : Except ReadError Text := do
  let bytes ← (d.readBytes p).mapError .file
  match codecs.lookup encoding with
  | none => .error (.unknownEncoding encoding)
  | some .transform => .error (.notText encoding)
  | some (.text decode) =>
    let text ← (decode bytes).mapError .decoding
    return Encoding.unifyBreaks text

end Disk

end PatternBook
