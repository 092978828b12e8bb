/-
  What the files below a path hold.

  1. **A file as a stream** (`OpenFile.delivers`).  An open file delivers the bytes behind its
     position, whatever room a read offers, and then it is over or reading it fails.

  2. **Reference** (`FileTree.messagesAt`, `FileTree.filesBelow`).  The messages of the file that a
     path leads to are those that the records of its bytes make.  A path that cannot be opened has
     none, and a root that cannot be walked has no files.

  3. **Files do not meddle with each other** (`SameBut`).  Two trees may differ in one file: in its
     bytes, in whether it can be opened, in how far it can be read.  The same files lie below every
     root, and every other file has the same messages.
-/
import RecordFeed.FileStreams
import RecordFeed.Proofs.Files.Lookup
import RecordFeed.Proofs.Messages.Assembly

namespace RecordFeed

/-! ## A file as a stream

  A scanner reads any source that delivers its bytes in pieces.  An open file does: what it is
  asked for decides how long the pieces are, and nothing else. -/

namespace OpenFile

variable {t : FileTree} {h : OpenFile} {room : Nat}

/-- The bytes behind the position: what further reads can give. -/
def rest (t : FileTree) (h : OpenFile) : Bytes := (h.content t).toList.drop h.position

/-- How reading ends behind them: a file whose bytes break off fails with the fault, any other one
    is over. -/
def ending (t : FileTree) (h : OpenFile) : StreamEnd :=
  match h.fault? t with
  | some error => .broken error
  | none => .over

/-- A read takes as much of the rest as there is room for.  This is the whole of what a read does,
    so that the theorem below needs nothing else of it. -/
theorem read_eq (t : FileTree) (h : OpenFile) (room : Nat) :
    h.read t room =
      if ((h.rest t).take room).isEmpty then
        match h.fault? t with
        | some error => .failed error h
        | none => .ended h
      else
        .data ((h.rest t).take room)
          { h with position := h.position + ((h.rest t).take room).length } := by
  have htaken : ((h.content t).extract h.position (h.position + room)).toList =
      (h.rest t).take room := by
    rw [Array.toList_extract, List.extract_eq_take_drop, Nat.add_sub_cancel_left, rest]
  rw [← htaken]
  rfl

/-- A read that has room gives bytes as long as there are any. -/
theorem rest_eq_nil (hroom : 0 < room) (htaken : ((h.rest t).take room).isEmpty) :
    h.rest t = [] := by
  rw [List.isEmpty_iff, List.take_eq_nil_iff] at htaken
  exact htaken.resolve_left (by omega)

/-- **An open file delivers the bytes behind its position.** By induction on their number: a read
    that gives bytes moves the position forward, and one that gives none has come to the end. -/
theorem delivers (t : FileTree) (h : OpenFile) : Delivers t h (h.rest t) (h.ending t) := by
  induction hn : h.left t using Nat.strongRecOn generalizing h with
  | ind n ih =>
    have hread (room : Nat) : ByteSource.read t h room = h.read t room := rfl
    refine .intro ?_ ?_ ?_ ?_ ?_
    · -- What a read gives comes first in the rest.
      intro room piece next _ hdata
      rw [hread, read_eq] at hdata
      split at hdata
      · split at hdata <;> simp at hdata
      · obtain ⟨rfl, -⟩ := ReadOutcome.data.inj hdata
        exact List.take_prefix _ _
    · -- Behind it, the rest is shorter, and what is delivered there is what was still to come.
      intro room piece next _ hdata
      obtain ⟨hne, -, hleft⟩ := ByteSource.read_data hdata
      have hpos := List.length_pos_iff.mpr hne
      have hless : next.left t + piece.length ≤ h.left t := hleft
      have hlater := ih (next.left t) (by omega) next rfl
      rw [hread, read_eq] at hdata
      split at hdata
      · split at hdata <;> simp at hdata
      · obtain ⟨rfl, rfl⟩ := ReadOutcome.data.inj hdata
        rw [rest, List.drop_drop]
        exact hlater
    · -- Files are not interrupted.
      intro room next _ hinterrupted
      exact absurd hinterrupted (read_ne_interrupted _ _ _ _)
    · -- An end is shown only behind the last byte, and of a file without a fault.
      intro room next hroom hended
      rw [hread, read_eq] at hended
      split at hended
      · rename_i htaken
        refine ⟨rest_eq_nil hroom htaken, ?_⟩
        rw [ending]
        cases hfault : h.fault? t with
        | none => rfl
        | some error => simp [hfault] at hended
      · simp at hended
    · -- A failure is shown only behind the last byte too, and it is the fault of the file.
      intro room error next hroom hfailed
      rw [hread, read_eq] at hfailed
      split at hfailed
      · rename_i htaken
        refine ⟨rest_eq_nil hroom htaken, ?_⟩
        rw [ending]
        cases hfault : h.fault? t with
        | none => simp [hfault] at hfailed
        | some error' =>
          rw [hfault] at hfailed
          obtain ⟨rfl, -⟩ := ReadOutcome.failed.inj hfailed
          rfl
      · simp at hfailed

/-- The records of an open file, and how they end.  This is the reference: it knows the bytes only,
    and nothing of reads. -/
def scan (t : FileTree) (settings : Settings) (h : OpenFile) : Scan :=
  cut settings.delimiterBytes settings.maxTokenSize (h.ending t) (h.rest t)

/-- A fresh scanner over the file gives them. -/
theorem drain_scannerOver {φ : Type} (t : FileTree) (f : Feed FileTree φ OpenFile) (h : OpenFile) :
    (f.scannerOver h).drain t = h.scan t f.settings :=
  Scanner.drain_eq_cut _ _ (delivers t h)

end OpenFile

/-! ## The files below a path

  These are the definitions that the statements about the program are made of. -/

namespace FileTree

/-- The messages of the file that a path leads to.  What cannot be opened has none.  So a file that
    cannot be opened is passed over, as the program does. -/
def messagesAt (t : FileTree) (settings : Settings) (path : Bytes) : List (List Bytes) :=
  match OpenFile.ofPath t path with
  | .ok h => (h.scan t settings).messages settings.multipart
  | .error _ => []

/-- The files below a path, in the order of paths.  What cannot be walked has none.  This is the
    list that the source of streams works through. -/
def filesBelow (t : FileTree) (path : Bytes) : List Bytes :=
  match t.files path with
  | .ok paths => paths
  | .error _ => []

/-- The messages of the files at some paths, one file after another. -/
def messagesIn (t : FileTree) (settings : Settings) (paths : List Bytes) : List (List Bytes) :=
  paths.flatMap (t.messagesAt settings)

variable {t : FileTree} {path : Bytes}

/-! ## Files do not meddle with each other

  One file is changed in every way that does not move it: other bytes, shut or open, broken off
  or whole.  A walk asks which nodes are directories and which are files, and the change
  answers none of this differently. -/

/-- Two trees that differ in one file at most: in its bytes, and in what stands in the way of using
    it. -/
structure SameBut (file : Nat) (t t' : FileTree) : Prop where
  root : t'.root = t.root
  current : t'.current = t.current
  node : ∀ id, id ≠ file → t'.node? id = t.node? id
  obstacle : ∀ id, id ≠ file → t'.obstacle id = t.obstacle id
  is_file : ∃ content, t.node? file = some (.file content)
  stays_file : ∃ content, t'.node? file = some (.file content)

namespace SameBut

variable {file : Nat} {t' : FileTree}

theorem symm (h : SameBut file t t') : SameBut file t' t where
  root := h.root.symm
  current := h.current.symm
  node id hid := (h.node id hid).symm
  obstacle id hid := (h.obstacle id hid).symm
  is_file := h.stays_file
  stays_file := h.is_file

/-- What is not a file is the same in both trees. -/
theorem ne_file {id : Nat} {node : FileNode} (h : SameBut file t t')
    (hnode : t.node? id = some node) (hother : ∀ content, node ≠ .file content) : id ≠ file := by
  rintro rfl
  obtain ⟨content, hfile⟩ := h.is_file
  exact hother content (Option.some.inj (hnode.symm.trans hfile))

/-- A directory or a link of one tree stands at the same place in the other one, as it is. -/
theorem node_of_other {id : Nat} {node : FileNode} (h : SameBut file t t')
    (hnode : t.node? id = some node) (hother : ∀ content, node ≠ .file content) :
    t'.node? id = some node :=
  (h.node id (h.ne_file hnode hother)).trans hnode

/-- A look-up goes through directories and links only. -/
theorem sameWays (h : SameBut file t t') : SameWays t t' where
  root := h.root
  current := h.current
  directory hdir := ⟨_, h.node_of_other hdir nofun, rfl⟩
  link hlink := h.node_of_other hlink nofun
  directory_back hdir := ⟨_, h.symm.node_of_other hdir nofun⟩
  link_back hlink := h.symm.node_of_other hlink nofun

theorem lookup_eq (h : SameBut file t t') (path : Bytes) : t'.lookup path = t.lookup path :=
  h.sameWays.lookup_eq path

/-- What cannot be looked up, and what is not a file, is the same in both trees. -/
theorem stat_eq (h : SameBut file t t') (hstat : ∀ content, t.stat path ≠ .ok (.file content)) :
    t'.stat path = t.stat path := by
  rw [stat, stat, h.lookup_eq]
  cases hfound : t.lookup path with
  | error error => rfl
  | ok id =>
    have hid : id ≠ file := by
      rintro rfl
      obtain ⟨content, hfile⟩ := h.is_file
      exact hstat content (by simp [stat, hfound, hfile])
    simp [h.node id hid]

/-- A file is a file in both trees. -/
theorem stat_file (h : SameBut file t t') {content : Array UInt8}
    (hstat : t.stat path = .ok (.file content)) :
    ∃ content, t'.stat path = .ok (.file content) := by
  -- were it not a file there, nothing would have changed on the way back
  by_contra hother
  have hback := h.symm.stat_eq fun content hfile => hother ⟨content, hfile⟩
  exact hother ⟨content, hback.symm.trans hstat⟩

/-- A directory can be listed in both trees, or in none. -/
theorem unlisted?_eq (h : SameBut file t t') {parent : Nat} {entries : List (Name × Nat)}
    (hstat : t.stat path = .ok (.directory parent entries)) :
    t'.unlisted? path = t.unlisted? path := by
  rw [unlisted?, unlisted?, h.lookup_eq]
  rw [stat] at hstat
  cases hfound : t.lookup path with
  | error error => rfl
  | ok id =>
    -- a directory is not the file in which the trees differ
    have hid : id ≠ file := by
      rintro rfl
      obtain ⟨content, hfile⟩ := h.is_file
      simp [hfound, hfile] at hstat
    simp [shut?, h.obstacle id hid]

/-- A walk does not look into files.  By induction on it: both trees list the same directories, and
    a file is told from other nodes in both. -/
theorem walk_eq (h : SameBut file t t') (path : Bytes) : t'.walk path = t.walk path := by
  fun_induction walk t path with
  | case1 path error hstat =>
    rw [walk, h.stat_eq (by simp [hstat]), hstat]
  | case2 path content hstat =>
    obtain ⟨content', hstat'⟩ := h.stat_file hstat
    rw [walk_of_file hstat']
  | case3 path parent entries hstat error hshut =>
    rw [walk, h.stat_eq (by simp [hstat]), hstat]
    simp only [h.unlisted?_eq hstat, hshut]
  | case4 path parent entries hstat hlisted ih =>
    have hstat' : t'.stat path = .ok (.directory parent entries) :=
      (h.stat_eq (by simp [hstat])).trans hstat
    rw [walk_of_directory hstat' ((h.unlisted?_eq hstat).trans hlisted)]
    simp only [ih]
  | case5 path node hnofile hnodir hstat =>
    have hother (content : Array UInt8) : t.stat path ≠ .ok (.file content) := fun hfile =>
      hnofile content (Except.ok.inj (hstat.symm.trans hfile))
    exact walk_of_other ((h.stat_eq hother).trans hstat) hnofile hnodir

/-- **The same files lie below every path.** -/
theorem filesBelow_eq (h : SameBut file t t') (path : Bytes) :
    t'.filesBelow path = t.filesBelow path := by
  rw [filesBelow, filesBelow, files, files, h.walk_eq]

/-- Another file, once open, gives the same records: its bytes and the fault behind them are looked
    up by its number. -/
theorem scan_eq (h : SameBut file t t') {handle : OpenFile} (hhandle : handle.node ≠ file)
    (settings : Settings) : handle.scan t' settings = handle.scan t settings := by
  simp only [OpenFile.scan, OpenFile.rest, OpenFile.ending, OpenFile.content, OpenFile.fault?,
    h.node handle.node hhandle, h.obstacle handle.node hhandle]

/-- **The messages of every other file are the same.** -/
theorem messagesAt_eq (h : SameBut file t t') (settings : Settings)
    (hpath : t.lookup path ≠ .ok file) :
    t'.messagesAt settings path = t.messagesAt settings path := by
  rw [messagesAt, messagesAt, OpenFile.ofPath, OpenFile.ofPath, h.lookup_eq]
  cases hfound : t.lookup path with
  | error error => rfl
  | ok id =>
    have hid : id ≠ file := by
      rintro rfl
      exact hpath hfound
    -- whether it can be opened depends on the obstacle of its own number
    have hshut : t'.shut? id = t.shut? id := by rw [shut?, shut?, h.obstacle id hid]
    simp only [hshut]
    cases t.shut? id with
    | some error => rfl
    | none => exact congrArg (Scan.messages settings.multipart) (h.scan_eq hid settings)

end SameBut

end FileTree

end RecordFeed
