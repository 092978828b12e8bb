/-
  The files below a path.

  A walk collects what a path leads to: a file is collected, a directory is walked entry by entry,
  anything else is passed over.  Links count as what they lead to.  One path that leads nowhere, or
  to a directory that cannot be listed, makes the whole walk fail, so the answer is all the files or
  none.

  The walk ends although links may lead back up: every entry lies below a longer path, and a path
  beyond the limit leads nowhere.

  `files` puts the paths in order, name by name, so the order in which directories list their
  entries does not show.
-/
import RecordFeed.FileTree.Lookup

namespace RecordFeed.FileTree

/-- Why the directory that a path leads to cannot be listed, if so. -/
def unlisted? (t : FileTree) (path : Bytes) : Option IoError :=
  match t.lookup path with
  | .ok id => t.shut? id
  | .error error => some error

/-- The paths of the files below a path, in the order in which directories list them.  By recursion
    on what is left of the length that a path may have, since nothing else bounds a tree whose links
    lead back up. -/
def walk (t : FileTree) (path : Bytes) : Except IoError (List Bytes) :=
  match _h : t.stat path with
  | .error error => .error error
  | .ok (.file _) => .ok [path]
  | .ok (.directory _ entries) =>
    match t.unlisted? path with
    | some error => .error error
    | none => do
      let below ← entries.mapM fun entry => walk t (Path.join path entry.1.bytes)
      return below.flatten
  | .ok _ => .ok []
termination_by pathLimit - path.length
decreasing_by
  have hlong := length_lt_of_stat _h
  have hlonger : path.length < (Path.join path entry.1.bytes).length :=
    Path.length_lt_join entry.1.nonempty
  omega

/-- The paths of the files below a path, in the order of paths. -/
def files (t : FileTree) (path : Bytes) : Except IoError (List Bytes) :=
  (t.walk path).map fun found => found.mergeSort Path.le

end RecordFeed.FileTree
