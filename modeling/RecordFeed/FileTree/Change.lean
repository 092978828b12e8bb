/-
  Changing a tree of files.

  Each change answers the changed tree, or `none` if the tree does not admit it.  Directories that
  are missing on the way to something new are made.  Writing to a file that is there keeps its
  node, so whoever has it open sees the new content.
-/
import RecordFeed.FileTree.Lookup

namespace RecordFeed.FileTree

/-- A tree with nothing in its current directory, and one special file. -/
def empty : FileTree where
  nodes := #[
    .directory 0 (entries [("dev", 1), ("tmp", 3)]),
    .directory 0 (entries [("null", 2)]),
    .special,
    .directory 0 (entries [("work", 4)]),
    .directory 3 []]
  root := 0
  current := 4
where
  entries (named : List (String × Nat)) : List (Name × Nat) :=
    named.filterMap fun (name, id) => (Name.of? (Bytes.ofString name)).map fun name => (name, id)

/-- Where the special file is. -/
def specialPath : Bytes := Bytes.ofString "/dev/null"

/-- The directory that one step leads to, made if its name is missing.  A link to a directory leads
    into it; a link that leads nowhere is in the way, and nothing is made. -/
def enter? (t : FileTree) (dir : Nat) (step : Path.Step) : Option (FileTree × Nat) :=
  match t.follow true linkLimit dir [step, .stay] with
  | .ok (.found id) => some (t, id)
  | _ =>
    match t.follow false linkLimit dir [step] with
    | .ok (.missing dir bytes) => do
      let name ← Name.of? bytes
      return (t.addEntry dir name (.directory dir []), t.nodes.size)
    | _ => none

/-- The directory that steps lead to, made as far as it is missing. -/
def enterAll? (t : FileTree) (dir : Nat) : List Path.Step → Option (FileTree × Nat)
  | [] => some (t, dir)
  | step :: rest => do
    let (t, dir) ← t.enter? dir step
    enterAll? t dir rest

/-- The directory above the last name of a path, and that name. -/
def above? (t : FileTree) (path : Bytes) : Option (FileTree × Nat × Bytes) :=
  match (Path.steps path).getLast? with
  | some (.into name) => do
    let (t, dir) ← t.enterAll? (t.origin t.current path) (Path.steps path).dropLast
    return (t, dir, name)
  | _ => none

/-- Makes a node under a name that is not there yet. -/
def create? (t : FileTree) (dir : Nat) (bytes : Bytes) (node : FileNode) : Option FileTree := do
  let name ← Name.of? bytes
  return t.addEntry dir name node

/-- Makes a directory, and all that are missing above it. -/
def placeDirectory? (t : FileTree) (path : Bytes) : Option FileTree :=
  (t.enterAll? (t.origin t.current path) (Path.steps path)).map Prod.fst

/-- Gives a file new content, which may depend on the old; makes the file if it is missing.  The
    special file takes whatever is written to it and stays as it is. -/
def rewriteFile? (t : FileTree) (path : Bytes) (content : Array UInt8 → Array UInt8) :
    Option FileTree := do
  let (t, dir, name) ← t.above? path
  match t.follow true linkLimit dir [.into name] with
  | .ok (.found id) =>
    match t.node? id with
    | some (.file old) => some (t.setNode id (.file (content old)))
    | some .special => some t
    | _ => none
  | .ok (.missing dir name) => t.create? dir name (.file (content #[]))
  | .error _ => none

/-- Puts a file in place. -/
def placeFile? (t : FileTree) (path content : Bytes) : Option FileTree :=
  t.rewriteFile? path fun _ => content.toArray

/-- Puts a link in place, where nothing may be yet. -/
def placeLink? (t : FileTree) (path target : Bytes) : Option FileTree := do
  let (t, dir, name) ← t.above? path
  match t.follow false linkLimit dir [.into name] with
  | .ok (.missing dir name) => t.create? dir name (.link target)
  | _ => none

/-- Takes away a name and, with it, all that is below. -/
def remove? (t : FileTree) (path : Bytes) : Option FileTree := do
  let (t, dir, name) ← t.above? path
  match t.follow false linkLimit dir [.into name] with
  | .ok (.found _) => some (t.removeEntry dir name)
  | _ => none

/-- Puts an obstacle in the way of what a path leads to. -/
def obstruct? (t : FileTree) (path : Bytes) (obstacle : Obstacle) : Option FileTree :=
  match t.lookup path with
  | .ok id =>
    some { t with obstacle := fun other => if other = id then some obstacle else t.obstacle other }
  | .error _ => none

end RecordFeed.FileTree
