import PatternBook.Disk

/-!
# File trees

Files and directories below a working directory. A path is walked name by name: every name but the
last has to be a directory, and a double dot goes up. Above the working directory only the way up
is known.
-/

namespace PatternBook

/-- Nodes by their names below the working directory, which has none. -/
structure FileTree where
  nodes : List (List Text × Node) := []

namespace FileTree

/-- A place: so many levels above the working directory, or below it. -/
inductive Place where
  | above (levels : Nat)
  | below (names : List Text)

def here : Place := .below []

def node? (t : FileTree) : Place → Option Node
  | .above _ => some .directory
  | .below names => if names.isEmpty then some .directory else t.nodes.lookup names

def up : Place → Place
  | .above levels => .above (levels + 1)
  | .below [] => .above 1
  | .below names => .below names.dropLast

def down? (name : Text) : Place → Option Place
  | .above _ => none
  | .below names => some (.below (names ++ [name]))

/-- Walks to the place that some names lead to. The place itself need not be there. -/
def walk (t : FileTree) (place : Place) : List Text → Except FileProblem Place
  | [] => .ok place
  | name :: names =>
    match t.node? place with
    | none => .error .missing
    | some (.file _) => .error .notDirectory
    | some .directory =>
      if name = ['.', '.'] then walk t (up place) names
      else
        match down? name place with
        | none => .error .missing
        | some place => walk t place names

def find (t : FileTree) (p : Path) : Except FileProblem Node :=
  if p.root.isEmpty then
    match walk t here p.names with
    | .error problem => .error problem
    | .ok place =>
      match t.node? place with
      | none => .error .missing
      | some node => .ok node
  else if p.names.isEmpty then .ok .directory
  else .error .missing

def disk (t : FileTree) : Disk := ⟨t.find⟩

def put (t : FileTree) (names : List Text) (node : Node) : FileTree :=
  ⟨(names, node) :: t.nodes.filter fun e => e.1 != names⟩

/-- Puts a node in place, with the directories above it. -/
def create (t : FileTree) (p : Path) (node : Node) : FileTree :=
  let parents := (List.range p.names.length).map fun n => p.names.take n
  let t := parents.foldl
    (fun t names => if (t.nodes.lookup names).isSome then t else t.put names .directory) t
  t.put p.names node

/-- Writes a file into a directory that is there. -/
def write (t : FileTree) (p : Path) (bytes : Bytes) : Except FileError FileTree :=
  if p.root.isEmpty then
    match walk t here p.names with
    | .error problem => .error ⟨problem, p⟩
    | .ok place =>
      match place, t.node? place with
      | .below names, some (.file _) => .ok (t.put names (.file bytes))
      | .below names, none => .ok (t.put names (.file bytes))
      | _, _ => .error ⟨.isDirectory, p⟩
  else .error ⟨if p.names.isEmpty then .isDirectory else .missing, p⟩

end FileTree

end PatternBook
