/-
  Looking up a path in a tree of files.

  A path is followed step by step from the root or from the current directory.  A link on the way
  is replaced by its target; over a whole look-up that happens at most forty times, and so the
  look-up ends even where links go round in a circle: the pair (links still allowed, steps still to
  take) falls in every round.

  Of several faults the one met first on the way is reported, and before any of them a path that
  cannot be handed to the operating system at all.
-/
import RecordFeed.Error.Io
import RecordFeed.FileTree.Tree

namespace RecordFeed.FileTree

/-- So many links are followed in one look-up. -/
def linkLimit : Nat := 40

/-- A path of so many bytes is too long. -/
def pathLimit : Nat := 4096

/-- A name of more bytes is too long. -/
def nameLimit : Nat := 255

/-- Where a look-up ends. -/
inductive Place where
  | found (id : Nat)
  /-- Only the last name is missing in its directory. -/
  | missing (dir : Nat) (name : Bytes)
deriving Repr, DecidableEq

/-- Where a path begins. -/
def origin (t : FileTree) (dir : Nat) (path : Bytes) : Nat :=
  if Path.isAbsolute path then t.root else dir

/-- Takes the steps, from a node on.  `followLast` says whether a link at the very end is followed
    as well.  A link is replaced by the steps of its target, which are taken from the directory that
    holds the link; each replacement uses up one of the links allowed. -/
def follow (t : FileTree) (followLast : Bool) (links : Nat) (id : Nat) (steps : List Path.Step) :
    Except SystemFault Place :=
  match steps with
  | [] => .ok (.found id)
  | step :: rest =>
    match t.node? id with
    | some (.directory parent entries) =>
      match step with
      | .stay => follow t followLast links id rest
      | .up => follow t followLast links parent rest
      | .into name =>
        if nameLimit < name.length then .error .nameTooLong
        else
          match entry? entries name with
          | none => if rest.isEmpty then .ok (.missing id name) else .error .noSuchEntry
          | some child =>
            match t.node? child with
            | some (.link target) =>
              if rest.isEmpty && !followLast then .ok (.found child)
              else
                match links with
                | 0 => .error .tooManyLinks
                | links + 1 =>
                  if target.isEmpty then .error .noSuchEntry
                  else follow t followLast links (t.origin id target) (Path.steps target ++ rest)
            | _ => follow t followLast links child rest
    | _ => .error .notDirectory
termination_by (links, steps.length)

/-- Where a path leads.  What cannot be handed to the operating system at all comes before anything
    that it would say. -/
def locate (t : FileTree) (path : Bytes) (followLast : Bool) : Except IoError Place :=
  if path.contains 0 then .error .nulInPath
  else if pathLimit ≤ path.length then .error (.system .nameTooLong)
  else if path.isEmpty then .error (.system .noSuchEntry)
  else
    match t.follow followLast linkLimit (t.origin t.current path) (Path.steps path) with
    | .ok place => .ok place
    | .error fault => .error (.system fault)

/-- The node that a path leads to, links followed. -/
def lookup (t : FileTree) (path : Bytes) : Except IoError Nat :=
  match t.locate path true with
  | .ok (.found id) => .ok id
  | .ok (.missing _ _) => .error (.system .noSuchEntry)
  | .error error => .error error

/-- What a path leads to, links followed. -/
def stat (t : FileTree) (path : Bytes) : Except IoError FileNode :=
  match t.lookup path with
  | .ok id =>
    match t.node? id with
    | some node => .ok node
    | none => .error (.system .noSuchEntry)
  | .error error => .error error

/-- Only a path within the limit leads anywhere. -/
theorem length_lt_of_locate {t : FileTree} {path : Bytes} {followLast : Bool} {place : Place}
    (h : t.locate path followLast = .ok place) : path.length < pathLimit := by
  unfold locate at h
  split at h
  · simp at h
  · split at h
    · simp at h
    · omega

/-- What can be looked at has a path within the limit.  This is why a walk ends (`walk`): every
    entry has a longer path than its directory. -/
theorem length_lt_of_stat {t : FileTree} {path : Bytes} {node : FileNode}
    (h : t.stat path = .ok node) : path.length < pathLimit := by
  unfold stat lookup at h
  cases hl : t.locate path true with
  | ok place => exact length_lt_of_locate hl
  | error error => simp [hl] at h

end RecordFeed.FileTree
