/-
  A tree of files.

  A tree is a table of nodes; directories give names to the numbers of nodes.  What a program has
  opened is the node and not the name, so a file that was opened can still be read after its name
  is gone, and shows what is appended to it later.  Taking a name away leaves the node in the table.

  That a name can be looked up does not mean that its node can be used: it may be shut against the
  program, or break off when it is read.  Such an `Obstacle` hangs on the node.
-/
import RecordFeed.Error.Io
import RecordFeed.FileTree.Path

namespace RecordFeed

/-- What a number stands for.  Names are not part of a node: they are given to it by directories,
    perhaps several. -/
inductive FileNode where
  | file (content : Array UInt8)
  /-- the entries, and the directory that `..` leads to -/
  | directory (parent : Nat) (entries : List (Name × Nat))
  | link (target : Bytes)
  /-- neither file nor directory; reading it gives nothing -/
  | special

/-- What stands in the way of using a node. -/
inductive Obstacle where
  /-- It can be neither opened nor listed. -/
  | shut (error : IoError)
  /-- Reading it fails behind so many bytes. -/
  | breaks (after : Nat) (error : IoError)
deriving Repr, DecidableEq

/-- The nodes, where paths begin, and what stands in the way.  Numbers that no directory names are
    harmless: no path leads to them. -/
structure FileTree where
  nodes : Array FileNode
  /-- where absolute paths begin -/
  root : Nat
  /-- where relative paths begin -/
  current : Nat
  /-- what stands in the way of using the nodes -/
  obstacle : Nat → Option Obstacle := fun _ => none

namespace FileTree

/-- The node under a number, if there is one. -/
def node? (t : FileTree) (id : Nat) : Option FileNode := t.nodes[id]?

/-- Why a node can be neither opened nor listed, if so. -/
def shut? (t : FileTree) (id : Nat) : Option IoError :=
  match t.obstacle id with
  | some (.shut error) => some error
  | _ => none

/-- What a directory holds under a name. -/
def entry? (entries : List (Name × Nat)) (name : Bytes) : Option Nat :=
  (entries.find? fun entry => entry.1.bytes == name).map Prod.snd

/-- The same tree with another node under a number. -/
def setNode (t : FileTree) (id : Nat) (node : FileNode) : FileTree :=
  { t with nodes := t.nodes.setIfInBounds id node }

/-- Makes a node and gives it a name in a directory. -/
def addEntry (t : FileTree) (dir : Nat) (name : Name) (node : FileNode) : FileTree :=
  match t.node? dir with
  | some (.directory parent entries) =>
    let id := t.nodes.size
    { t with nodes := t.nodes.push node }.setNode dir
      (.directory parent (entries ++ [(name, id)]))
  | _ => t

/-- Takes a name away from a directory. -/
def removeEntry (t : FileTree) (dir : Nat) (name : Bytes) : FileTree :=
  match t.node? dir with
  | some (.directory parent entries) =>
    t.setNode dir (.directory parent (entries.filter fun entry => entry.1.bytes != name))
  | _ => t

end FileTree

end RecordFeed
