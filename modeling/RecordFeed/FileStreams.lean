/-
  The files below a root, one stream after another.

  The first request walks the root and fixes the list of paths; from then on each request takes the
  first path off the list and opens it, whether that succeeds or not.  A walk that fails is reported
  once and leaves an empty list.

  An opened file is a node and a position in it.
-/
import RecordFeed.FileTree.Walk
import RecordFeed.Source

namespace RecordFeed

/-! ## Open files

  An open file is a node of the tree and a place in it.  What it gives is the content that the
  node has when it is read, so that a file may change while it is open. -/

/-- A file that was opened: its node, and how far it has been read.  It stays what it is when the
    name is gone or leads elsewhere. -/
structure OpenFile where
  node : Nat
  position : Nat := 0
deriving Repr, DecidableEq

namespace OpenFile

/-- Opens whatever a path leads to, unless it is shut.  A directory can be opened, but not read. -/
def ofPath (t : FileTree) (path : Bytes) : Except IoError OpenFile :=
  match t.lookup path with
  | .error error => .error error
  | .ok node =>
    match t.shut? node with
    | some error => .error error
    | none => .ok { node }

/-- What the file lets be read of it now.  What an obstacle hides counts as not there. -/
def content (t : FileTree) (h : OpenFile) : Array UInt8 :=
  match t.node? h.node with
  | some (.file content) =>
    match t.obstacle h.node with
    | some (.breaks after _) => content.take after
    | _ => content
  | _ => #[]

/-- How reading ends behind it, if it is not simply over. -/
def fault? (t : FileTree) (h : OpenFile) : Option IoError :=
  match t.node? h.node with
  | some (.file _) =>
    match t.obstacle h.node with
    | some (.breaks _ error) => some error
    | _ => none
  | some (.directory _ _) => some (.system .isDirectory)
  | _ => none

/-- How many bytes lie behind the position. -/
def left (t : FileTree) (h : OpenFile) : Nat := (h.content t).size - h.position

/-- One read: it gives bytes and moves past them.  When there are none, the file is over or reading
    it fails.  Only a read that gives nothing tells how the file ends, so all that can be read is
    read before a fault is met. -/
def read (t : FileTree) (h : OpenFile) (room : Nat) : ReadOutcome OpenFile :=
  let bytes := ((h.content t).extract h.position (h.position + room)).toList
  if bytes.isEmpty then
    match h.fault? t with
    | some error => .failed error h
    | none => .ended h
  else .data bytes { h with position := h.position + bytes.length }

theorem left_advance (t : FileTree) (h : OpenFile) (n : Nat) :
    left t { h with position := h.position + n } = h.left t - n := by
  have hsame : content t { h with position := h.position + n } = h.content t := rfl
  simp only [left, hsame]
  omega

/-- What a read gives is taken from what was there. -/
theorem read_data {t : FileTree} {h next : OpenFile} {room : Nat} {bytes : Bytes}
    (hread : h.read t room = .data bytes next) :
    bytes ≠ [] ∧ bytes.length ≤ room ∧ next.left t + bytes.length ≤ h.left t := by
  unfold read at hread
  dsimp only at hread
  split at hread
  · split at hread <;> simp at hread
  · rename_i hne
    obtain ⟨rfl, rfl⟩ := ReadOutcome.data.inj hread
    -- the bytes are cut from the content at the position, so they fit the room and lie behind the
    -- position
    refine ⟨fun hnil => hne (List.isEmpty_iff.mpr hnil), ?_, ?_⟩
    · simp only [Array.length_toList, Array.size_extract]
      omega
    · rw [left_advance]
      simp only [left, Array.length_toList, Array.size_extract]
      omega

theorem read_ended {t : FileTree} {h next : OpenFile} {room : Nat}
    (hread : h.read t room = .ended next) : next = h := by
  unfold read at hread
  dsimp only at hread
  split at hread
  · split at hread
    · simp at hread
    · exact (ReadOutcome.ended.inj hread).symm
  · simp at hread

/-- Files are read without interruption. -/
theorem read_ne_interrupted (t : FileTree) (h next : OpenFile) (room : Nat) :
    h.read t room ≠ .interrupted next := by
  intro hread
  unfold read at hread
  dsimp only at hread
  split at hread
  · split at hread <;> simp at hread
  · simp at hread

/-- A read that fails leaves the handle as it was. -/
theorem read_failed {t : FileTree} {h next : OpenFile} {room : Nat} {error : IoError}
    (hread : h.read t room = .failed error next) : next = h := by
  unfold read at hread
  dsimp only at hread
  split at hread
  · split at hread
    · exact (ReadOutcome.failed.inj hread).2.symm
    · simp at hread
  · simp at hread

instance : ByteSource FileTree OpenFile where
  read t h room := h.read t room
  left t h := h.left t
  read_data := read_data
  read_ended hread := Nat.le_of_eq (read_ended hread ▸ rfl)
  read_interrupted hread := absurd hread (read_ne_interrupted _ _ _ _)
  read_failed hread := Nat.le_of_eq (read_failed hread ▸ rfl)

end OpenFile

/-- So much room is offered at a time when a whole file is read. -/
def wholeFileRoom : Nat := 8192

/-- Everything that a file still gives.  It ends because the file has only so many bytes left behind
    its position. -/
def FileTree.drain (t : FileTree) (h : OpenFile) : Except IoError Bytes :=
  match _h : ByteSource.read t h wholeFileRoom with
  | .data bytes next => (t.drain next).map fun more => bytes ++ more
  | .ended _ => .ok []
  | .interrupted next => t.drain next
  | .failed error _ => .error error
termination_by ByteSource.left t h
decreasing_by
  · obtain ⟨hne, -, hle⟩ := ByteSource.read_data _h
    have := List.length_pos_iff.mpr hne
    omega
  · exact ByteSource.read_interrupted _h

/-- The content of the file that a path leads to. -/
def FileTree.content (t : FileTree) (path : Bytes) : Except IoError Bytes :=
  match OpenFile.ofPath t path with
  | .ok h => t.drain h
  | .error error => .error error

/-- The content of a file that has to be text. -/
def FileTree.text (t : FileTree) (path : Bytes) : Except IoError String :=
  match t.content path with
  | .ok bytes =>
    match Text.utf8? bytes with
    | some text => .ok text
    | none => .error .notText
  | .error error => .error error

/-! ## One file after another

  The paths are found at the first request and never again.  Each request tries one of them. -/

/-- The files below a root, as streams. -/
structure FileStreams where
  root : Bytes
  /-- the paths still to be opened, once the root was walked -/
  pending : Option (List Bytes) := none
  /-- the path of the file opened last -/
  currentPath : Option Bytes := none
deriving Repr

namespace FileStreams

/-- How many files are still to be opened, once that is known. -/
def remaining (f : FileStreams) : Option Nat := f.pending.map List.length

/-- Takes the first path off the list and opens it.  A path that cannot be opened is off the list as
    well, and the path of the file opened last stays. -/
def openFirst (t : FileTree) (f : FileStreams) : List Bytes → Reply FileStreams (Opening OpenFile)
  | [] => { answer := .exhausted, next := { f with pending := some [], currentPath := none } }
  | path :: rest =>
    let f := { f with pending := some rest }
    match OpenFile.ofPath t path with
    | .error error => { answer := .failed error, next := f }
    | .ok h =>
      { answer := .stream h
        next := { f with currentPath := some path }
        events := [.log (.openedFile path)] }

/-- Opens the next file.  The walk is made by the first request, and only by it: a failed walk
    leaves an empty list behind, and so is not tried again. -/
def nextStream (t : FileTree) (f : FileStreams) : Reply FileStreams (Opening OpenFile) :=
  match f.pending with
  | some paths => f.openFirst t paths
  | none =>
    match t.files f.root with
    | .error error => { answer := .failed error, next := { f with pending := some [] } }
    | .ok paths => (f.openFirst t paths).after [.log (.walked f.root paths.length)]

instance : StreamFactory FileTree FileStreams OpenFile where
  nextStream := nextStream

end FileStreams

end RecordFeed
