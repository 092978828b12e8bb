/-
  Visiting the files below a root in order.

  A walk collects paths as the directories list their entries, and all of them are sorted
  afterwards, name by name.  Going through the tree in the order of names comes to the same: what
  lies below a directory stays together, though a byte of a longer name may be smaller than a slash
  (`in/a/b` is before `in/a.log`).

  1. **Sorting by a key** (`mergeSort_key_eq`).  What can be ordered strictly can be ordered so in
     one way only.

  2. **Reference** (`preorder`, `Relisted`).  The preorder traversal takes the entries of each
     directory in the order of their names, which differ within a directory (`WellNamed`).  A tree
     is relisted if its directories list their entries in another order.

  3. **The order of paths** (`pairwise_preorder`).  The traversal comes to its paths in strictly
     ascending order, because the names of a path are the first names of all that lies below it.

  4. **The walk** (`files_eq_preorder`).  It finds what the traversal comes to, in some order, so
     sorting gives the traversal.

  5. **Listing** (`Relisted.preorder_eq`, `Relisted.files_eq`).  Neither look-ups nor the traversal
     see in which order a directory is listed.
-/
import Mathlib
import RecordFeed.Proofs.Files.Descent
import RecordFeed.Proofs.Files.Naming

namespace RecordFeed

/-! ## Sorting by a key

  The order of paths compares their lists of names, and two paths can have one list.  So it is
  no order of paths, but one of their keys, and the lemmas are stated for a key. -/

section

variable {α κ : Type} [LE κ] [Std.IsLinearOrder κ] {key : α → κ} {le : α → α → Bool}

/-- Sorting orders by the key, perhaps with keys that are equal. -/
theorem pairwise_mergeSort_key (hle : ∀ a b, le a b = true ↔ key a ≤ key b) (xs : List α) :
    (xs.mergeSort le).Pairwise fun a b => key a ≤ key b := by
  have htrans (a b c : α) (hab : le a b = true) (hbc : le b c = true) : le a c = true := by
    rw [hle] at hab hbc ⊢
    exact Std.le_trans hab hbc
  have htotal (a b : α) : (le a b || le b a) = true := by
    rw [Bool.or_eq_true, hle, hle]
    exact Std.le_total
  exact (List.pairwise_mergeSort htrans htotal xs).imp (hle _ _).mp

variable [LT κ] [Std.LawfulOrderLT κ]

/-- **A list can be ordered strictly in one way only**, and sorting it does so.  So the algorithm
    does not matter, only that it permutes and orders. -/
theorem mergeSort_key_eq (hle : ∀ a b, le a b = true ↔ key a ≤ key b) {xs ordered : List α}
    (hperm : xs.Perm ordered) (hordered : ordered.Pairwise fun a b => key a < key b) :
    xs.mergeSort le = ordered := by
  -- keys that are strictly ordered differ
  have hkeys : (ordered.map key).Nodup :=
    List.pairwise_map.mpr (hordered.imp fun hlt => Std.ne_of_lt hlt)
  have hsorted : (xs.mergeSort le).Perm ordered := (List.mergeSort_perm _ _).trans hperm
  refine hsorted.eq_of_pairwise (fun a b ha hb hab hba => ?_) (pairwise_mergeSort_key hle xs)
    (hordered.imp Std.le_of_lt)
  -- neither of two entries is before the other only when they have one key, and then they are the
  -- same
  exact List.inj_on_of_nodup_map hkeys (hsorted.mem_iff.mp ha) hb (Std.le_antisymm hab hba)

/-- Sorting by keys that differ orders strictly. -/
theorem pairwise_lt_mergeSort_key (hle : ∀ a b, le a b = true ↔ key a ≤ key b) {xs : List α}
    (hkeys : (xs.map key).Nodup) : (xs.mergeSort le).Pairwise fun a b => key a < key b := by
  have hkeys' : ((xs.mergeSort le).map key).Nodup :=
    ((List.mergeSort_perm _ _).map key).nodup_iff.mpr hkeys
  exact ((pairwise_mergeSort_key hle xs).and (List.pairwise_map.mp hkeys')).imp fun hab =>
    Std.lt_of_le_of_ne hab.1 hab.2

end

/-! ## Reference

  The traversal does what a reader of the directory would do by hand.  It does not sort paths,
  and it does not collect them first. -/

/-- The same node, if it is a directory perhaps with its entries in another order. -/
inductive FileNode.Relisted : FileNode → FileNode → Prop where
  | same (node : FileNode) : Relisted node node
  | directory {parent : Nat} {entries entries' : List (Name × Nat)} (perm : entries'.Perm entries) :
      Relisted (.directory parent entries) (.directory parent entries')

theorem FileNode.Relisted.symm {node node' : FileNode} (h : node.Relisted node') :
    node'.Relisted node := by
  cases h with
  | same => exact .same _
  | directory hperm => exact .directory hperm.symm

/-- A directory stays a directory, with the same entries in some order. -/
theorem FileNode.Relisted.of_directory {parent : Nat} {entries : List (Name × Nat)} {node : FileNode}
    (h : (FileNode.directory parent entries).Relisted node) :
    ∃ entries', node = .directory parent entries' ∧ entries'.Perm entries := by
  cases h with
  | same => exact ⟨entries, rfl, .refl _⟩
  | directory hperm => exact ⟨_, rfl, hperm⟩

namespace FileTree

/-- The entries of a directory in the order of their names. -/
def byName (entries : List (Name × Nat)) : List (Name × Nat) :=
  entries.mergeSort fun a b => decide (a.1.bytes ≤ b.1.bytes)

/-- The files below a path: a file is visited when it is come to, and a directory entry by entry, in
    the order of their names.  It asks whether a directory can be listed no more than whether a file
    can be opened: this is left to the walk. -/
def preorder (t : FileTree) (path : Bytes) : List Bytes :=
  match _h : t.stat path with
  | .ok (.file _) => [path]
  | .ok (.directory _ entries) =>
    (byName entries).flatMap fun entry => preorder t (Path.join path entry.1.bytes)
  | _ => []
termination_by pathLimit - path.length
decreasing_by
  have hlimit := length_lt_of_stat _h
  have hlonger : path.length < (Path.join path entry.1.bytes).length :=
    Path.length_lt_join entry.1.nonempty
  omega

/-- The same tree, except that directories may list their entries in another order. -/
structure Relisted (t t' : FileTree) : Prop where
  root : t'.root = t.root
  current : t'.current = t.current
  obstacle : t'.obstacle = t.obstacle
  node : ∀ id, Option.Rel FileNode.Relisted (t.node? id) (t'.node? id)

variable {t : FileTree} {root path : Bytes} {entries entries' : List (Name × Nat)} {found : List Bytes}

theorem byName_perm (entries : List (Name × Nat)) : (byName entries).Perm entries :=
  List.mergeSort_perm _ _

/-- Where names differ, each comes strictly before the next. -/
theorem pairwise_byName (h : DistinctNames entries) :
    (byName entries).Pairwise fun a b => a.1.bytes < b.1.bytes :=
  pairwise_lt_mergeSort_key (fun _ _ => decide_eq_true_iff) h

/-- In the order of names it does not show how the entries were listed, as long as no two of them
    have one name. -/
theorem byName_eq (h : DistinctNames entries) (hperm : entries'.Perm entries) :
    byName entries' = byName entries :=
  mergeSort_key_eq (fun _ _ => decide_eq_true_iff) (hperm.trans (byName_perm entries).symm)
    (pairwise_byName h)

/-! ## The order of paths

  Sorting compares whole paths, name by name.  The traversal compares names of one directory.
  That both orders agree needs that all paths below an entry share the names up to it. -/

/-- Below a path all the names of the path come first.  By induction on the traversal. -/
theorem names_prefix_of_mem (h : path ∈ t.preorder root) : Path.names root <+: Path.names path := by
  fun_induction preorder t root with
  | case1 root content hstat =>
    obtain rfl := List.mem_singleton.mp h
    exact List.prefix_rfl
  | case2 root parent entries hstat ih =>
    obtain ⟨entry, hmem, hpath⟩ := List.mem_flatMap.mp h
    have hentry := ih entry hpath
    rw [Path.names_join] at hentry
    exact (List.prefix_append _ _).trans hentry
  | case3 => cases h

/-- **A preorder traversal comes in the order of paths**, and to no path twice: what lies below one
    name comes before what lies below a later name.  By induction on the traversal; the names of a
    directory are the same for all its entries, and the next name decides. -/
theorem pairwise_preorder (hnames : t.WellNamed) (root : Bytes) :
    (t.preorder root).Pairwise fun p q => Path.names p < Path.names q := by
  fun_induction preorder t root with
  | case1 => exact List.pairwise_singleton _ _
  | case2 root parent entries hstat ih =>
    -- two paths are below one entry, or below two
    apply List.pairwise_flatMap.mpr
    constructor
    · intro entry _
      exact ih entry
    · refine (pairwise_byName (hnames.of_stat hstat)).imp ?_
      -- behind the names of the directory the smaller name decides
      intro a b hlt p hp q hq
      obtain ⟨p', hp'⟩ := names_prefix_of_mem hp
      obtain ⟨q', hq'⟩ := names_prefix_of_mem hq
      rw [← hp', ← hq', Path.names_join, Path.names_join, List.append_assoc, List.append_assoc]
      apply List.append_left_lt
      exact List.cons_lt_cons_iff.mpr (.inl hlt)
  | case3 => exact .nil

/-! ## The walk

  The walk and the traversal descend alike, and differ only in the order of the entries. -/

/-- Lists that come of entries, one after another, and what they are permutations of. -/
theorem flatten_perm_of_mapM {α β ε : Type} {f : α → Except ε (List β)} {g : α → List β}
    {xs : List α} {each : List (List β)} (h : xs.map f = each.map .ok)
    (hperm : ∀ x ys, f x = .ok ys → ys.Perm (g x)) : each.flatten.Perm (xs.flatMap g) := by
  induction xs generalizing each with
  | nil =>
    obtain rfl : each = [] := List.map_eq_nil_iff.mp h.symm
    exact .refl _
  | cons x xs ih =>
    obtain ⟨ys, each, rfl, hx, hxs⟩ := List.map_eq_cons_iff.mp h.symm
    rw [List.flatten_cons, List.flatMap_cons]
    exact (hperm x ys hx.symm).append (ih hxs.symm)

/-- **A walk finds what a preorder traversal comes to**, in some order.  By induction on the
    walk. -/
theorem perm_preorder (h : t.walk root = .ok found) : found.Perm (t.preorder root) := by
  fun_induction walk t root generalizing found with
  | case1 => cases h
  | case2 root content hstat =>
    obtain rfl : [root] = found := Except.ok.inj h
    rw [preorder, hstat]
  | case3 => cases h
  | case4 root parent entries hstat hlisted ih =>
    cases hmap : entries.mapM fun entry => t.walk (Path.join root entry.1.bytes) with
    | error error => rw [hmap] at h; cases h
    | ok each =>
      rw [hmap] at h
      obtain rfl : each.flatten = found := Except.ok.inj h
      -- the traversal takes the same entries in another order
      have hpreorder : t.preorder root = (byName entries).flatMap fun entry =>
          t.preorder (Path.join root entry.1.bytes) := by
        rw [preorder, hstat]
      rw [hpreorder]
      exact (flatten_perm_of_mapM (mapM_ok hmap) fun entry below => ih entry).trans
        ((byName_perm entries).symm.flatMap_right _)
  | case5 root node hnofile hnodir hstat =>
    obtain rfl : [] = found := Except.ok.inj h
    rw [preorder, hstat]
    cases node with
    | file content => exact absurd rfl (hnofile content)
    | directory parent entries => exact absurd rfl (hnodir parent entries)
    | link | special => exact .refl _

/-- **The paths that were found are in preorder** once they are in order: they are those of the
    traversal, and the traversal is strictly ordered. -/
theorem files_eq_preorder (hnames : t.WellNamed) (h : t.walk root = .ok found) :
    t.files root = .ok (t.preorder root) := by
  have hle (p q : Bytes) : Path.le p q = true ↔ Path.names p ≤ Path.names q := decide_eq_true_iff
  have hsorted : found.mergeSort Path.le = t.preorder root :=
    mergeSort_key_eq hle (perm_preorder h) (pairwise_preorder hnames root)
  rw [files, h, ← hsorted]
  rfl

/-! ## Directories in another order

  A listing comes from outside, in an order that nothing is known of.  It is enough that the
  same entries are listed: each lemma carries one part of the walk over. -/

namespace Relisted

variable {t' : FileTree}

theorem symm (h : Relisted t t') : Relisted t' t where
  root := h.root.symm
  current := h.current.symm
  obstacle := h.obstacle.symm
  node id := by
    have hnode := h.node id
    generalize t.node? id = node at hnode ⊢
    generalize t'.node? id = node' at hnode ⊢
    cases hnode with
    | some hsame => exact .some hsame.symm
    | none => exact .none

/-- A node of one tree is a node of the other. -/
theorem exists_node {id : Nat} {node : FileNode} (h : Relisted t t') (hnode : t.node? id = some node) :
    ∃ node', t'.node? id = some node' ∧ node.Relisted node' := by
  have hrel := h.node id
  rw [hnode] at hrel
  cases hnode' : t'.node? id with
  | none => rw [hnode'] at hrel; cases hrel
  | some node' =>
    rw [hnode'] at hrel
    cases hrel with
    | some hsame => exact ⟨node', rfl, hsame⟩

/-- One directory is listed in another order. -/
theorem of_setNode {id parent : Nat} (hdir : t.node? id = some (.directory parent entries))
    (hperm : entries'.Perm entries) :
    Relisted t (t.setNode id (.directory parent entries')) where
  root := rfl
  current := rfl
  obstacle := rfl
  node other := by
    have hbound : id < t.nodes.size := (Array.getElem?_eq_some_iff.mp hdir).1
    have hnode : (t.setNode id (.directory parent entries')).node? other =
        if id = other then some (.directory parent entries') else t.node? other := by
      rw [node?, setNode, Array.getElem?_setIfInBounds, if_pos hbound, node?]
    rw [hnode]
    split
    · rename_i hsame
      rw [← hsame, hdir]
      exact .some (.directory hperm)
    · cases t.node? other with
      | none => exact .none
      | some node => exact .some (.same node)

/-- Look-ups go the same ways, since they find entries by their names. -/
theorem sameWays (h : Relisted t t') (hnames : t.WellNamed) : SameWays t t' where
  root := h.root
  current := h.current
  directory := by
    intro id parent entries hnode
    obtain ⟨node', hnode', hsame⟩ := h.exists_node hnode
    obtain ⟨entries', rfl, hperm⟩ := hsame.of_directory
    -- names differ, so that every order gives the same entry for a name
    exact ⟨entries', hnode', entry?_perm (hnames _ _ hnode) hperm⟩
  link := by
    intro id target hnode
    obtain ⟨node', hnode', hsame⟩ := h.exists_node hnode
    cases hsame with
    | same => exact hnode'
  directory_back := by
    intro id parent entries' hnode'
    obtain ⟨node, hnode, hsame⟩ := h.symm.exists_node hnode'
    obtain ⟨entries, rfl, -⟩ := hsame.of_directory
    exact ⟨entries, hnode⟩
  link_back := by
    intro id target hnode'
    obtain ⟨node, hnode, hsame⟩ := h.symm.exists_node hnode'
    cases hsame with
    | same => exact hnode

/-- Names differ in both trees, or in none. -/
theorem wellNamed (h : Relisted t t') (hnames : t.WellNamed) : t'.WellNamed := by
  intro id node' hnode'
  obtain ⟨node, hnode, hsame⟩ := h.symm.exists_node hnode'
  cases hsame with
  | same => exact hnames _ _ hnode
  | directory hperm => exact DistinctNames.perm (hnames _ _ hnode) hperm.symm

theorem lookup_eq (h : Relisted t t') (hnames : t.WellNamed) (path : Bytes) :
    t'.lookup path = t.lookup path :=
  (h.sameWays hnames).lookup_eq path

theorem shut?_eq (h : Relisted t t') (id : Nat) : t'.shut? id = t.shut? id := by
  rw [shut?, shut?, h.obstacle]

theorem ofPath_eq (h : Relisted t t') (hnames : t.WellNamed) (path : Bytes) :
    OpenFile.ofPath t' path = OpenFile.ofPath t path := by
  simp only [OpenFile.ofPath, h.lookup_eq hnames, h.shut?_eq]

theorem unlisted?_eq (h : Relisted t t') (hnames : t.WellNamed) (path : Bytes) :
    t'.unlisted? path = t.unlisted? path := by
  simp only [unlisted?, h.lookup_eq hnames, h.shut?_eq]

/-- What a path leads to is the same node, perhaps relisted. -/
theorem exists_stat {node : FileNode} (h : Relisted t t') (hnames : t.WellNamed)
    (hstat : t.stat path = .ok node) : ∃ node', t'.stat path = .ok node' ∧ node.Relisted node' := by
  obtain ⟨id, hid, hnode⟩ := node_of_stat hstat
  obtain ⟨node', hnode', hsame⟩ := h.exists_node hnode
  refine ⟨node', ?_, hsame⟩
  -- the number is the same, and only the node behind it may be relisted
  rw [stat, h.lookup_eq hnames, hid]
  dsimp only
  rw [hnode']

/-- And there is nothing else that a path leads to. -/
theorem stat_back {node' : FileNode} (h : Relisted t t') (hnames : t.WellNamed)
    (hstat : t'.stat path = .ok node') : ∃ node, t.stat path = .ok node ∧ node.Relisted node' := by
  obtain ⟨node, hstat', hsame⟩ := h.symm.exists_stat (h.wellNamed hnames) hstat
  exact ⟨node, hstat', hsame.symm⟩

/-- **A preorder traversal does not show how the directories list their entries.** By induction on
    the traversal. -/
theorem preorder_eq (h : Relisted t t') (hnames : t.WellNamed) (root : Bytes) :
    t'.preorder root = t.preorder root := by
  fun_induction preorder t root with
  | case1 root content hstat =>
    obtain ⟨node', hstat', hsame⟩ := h.exists_stat hnames hstat
    cases hsame with
    | same => rw [preorder, hstat']
  | case2 root parent entries hstat ih =>
    obtain ⟨node', hstat', hsame⟩ := h.exists_stat hnames hstat
    obtain ⟨entries', rfl, hperm⟩ := hsame.of_directory
    rw [preorder, hstat']
    dsimp only
    -- in the order of names, both directories have the same entries
    rw [byName_eq (hnames.of_stat hstat) hperm]
    exact congrArg List.flatten (List.map_congr_left fun entry _ => ih entry)
  | case3 root hnofile hnodir =>
    rw [preorder]
    split
    · rename_i content hstat'
      obtain ⟨node, hstat, hsame⟩ := h.stat_back hnames hstat'
      cases hsame with
      | same => exact (hnofile _ hstat).elim
    · rename_i parent entries' hstat'
      obtain ⟨node, hstat, hsame⟩ := h.stat_back hnames hstat'
      cases hsame with
      | same | directory => exact (hnodir _ _ hstat).elim
    · rfl

/-- No directory has got an entry that it did not have. -/
theorem child_back {child : Bytes} (h : Relisted t t') (hnames : t.WellNamed)
    (hchild : t'.Child path child) : t.Child path child := by
  cases hchild with
  | entry hstat' hlisted hmem =>
    rw [h.unlisted?_eq hnames] at hlisted
    obtain ⟨node, hstat, hsame⟩ := h.stat_back hnames hstat'
    cases hsame with
    | same => exact .entry hstat hlisted hmem
    | directory hperm => exact .entry hstat hlisted (hperm.mem_iff.mp hmem)

/-- A path that is not refused is refused in no relisted tree either. -/
theorem refusal?_eq_none (h : Relisted t t') (hnames : t.WellNamed) (hclear : t.refusal? path = none) :
    t'.refusal? path = none := by
  cases hstat : t.stat path with
  | error error =>
    rw [refusal?, hstat] at hclear
    cases hclear
  | ok node =>
    obtain ⟨node', hstat', hsame⟩ := h.exists_stat hnames hstat
    rw [refusal?, hstat] at hclear
    rw [refusal?, hstat']
    cases hsame with
    | same =>
      cases node with
      | directory parent entries => exact (h.unlisted?_eq hnames path).trans hclear
      | file | link | special => rfl
    | directory => exact (h.unlisted?_eq hnames path).trans hclear

/-- A walk that succeeds does so whatever the order.  A refused path of the other tree would be
    refused in this one. -/
theorem exists_walk (h : Relisted t t') (hnames : t.WellNamed) (hwalk : t.walk root = .ok found) :
    ∃ found', t'.walk root = .ok found' := by
  cases hwalk' : t'.walk root with
  | ok found' => exact ⟨found', rfl⟩
  | error error =>
    obtain ⟨path, hbelow', hrefused⟩ := refused_of_walk hwalk'
    -- a descent in one tree is a descent in the other
    have hbelow : t.Below root path :=
      Relation.ReflTransGen.mono (fun _ _ => h.child_back hnames) _ _ hbelow'
    rw [h.refusal?_eq_none hnames ((gathers_of_walk hwalk).clear path hbelow)] at hrefused
    cases hrefused

/-- **The same files are found, in the same order.** -/
theorem files_eq (h : Relisted t t') (hnames : t.WellNamed) (hwalk : t.walk root = .ok found) :
    t'.files root = t.files root := by
  obtain ⟨found', hwalk'⟩ := h.exists_walk hnames hwalk
  rw [files_eq_preorder (h.wellNamed hnames) hwalk', files_eq_preorder hnames hwalk,
    h.preorder_eq hnames]

end Relisted

end FileTree

/-! ## One file after another

  Requests in one tree that does not change.  The list that they work off was found by the walk
  and sorted, so that it is the traversal. -/

namespace FileStreams

variable {t t' : FileTree} {f : FileStreams}

/-- The root stays what it was. -/
theorem nextStream_root (t : FileTree) (f : FileStreams) : (f.nextStream t).next.root = f.root := by
  have hfirst (f : FileStreams) (paths : List Bytes) : (f.openFirst t paths).next.root = f.root := by
    cases paths with
    | nil => rfl
    | cons path rest =>
      rw [openFirst]
      dsimp only
      split <;> rfl
  rw [nextStream]
  split
  · exact hfirst f _
  · split
    · rfl
    · exact hfirst f _

/-- A request sees of the tree which files are found and what opening them comes to.  Both are
    hypotheses here, so that any change that keeps them will do. -/
theorem nextStream_congr (hfiles : t'.files f.root = t.files f.root)
    (hopen : OpenFile.ofPath t' = OpenFile.ofPath t) : f.nextStream t' = f.nextStream t := by
  have hfirst (paths : List Bytes) : f.openFirst t' paths = f.openFirst t paths := by
    cases paths with
    | nil => rfl
    | cons path rest => rw [openFirst, openFirst, hopen]
  rw [nextStream, nextStream, hfiles]
  simp only [hfirst]

/-- Requests in a tree that does not change see nothing else of it.  By induction on their
    number. -/
theorem requests_congr (n : Nat) (hfiles : t'.files f.root = t.files f.root)
    (hopen : OpenFile.ofPath t' = OpenFile.ofPath t) :
    f.requests (List.replicate n t') = f.requests (List.replicate n t) := by
  induction n generalizing f with
  | zero => rfl
  | succ n ih =>
    have hnext : t'.files (f.nextStream t).next.root = t.files (f.nextStream t).next.root := by
      rw [nextStream_root, hfiles]
    rw [List.replicate_succ, List.replicate_succ, requests, requests, nextStream_congr hfiles hopen,
      ih hnext]

/-- A path that leads to a file is answered with this file, unless it is shut. -/
theorem answer_of_isFile {path : Bytes} (h : t.IsFile path) :
    ∃ id content, t.node? id = some (.file content) ∧
      Try.answer ⟨path, t⟩ = match t.shut? id with
        | some error => .failed error
        | none => .stream { node := id } := by
  obtain ⟨content, hstat⟩ := h
  obtain ⟨id, hid, hnode⟩ := FileTree.node_of_stat hstat
  refine ⟨id, content, hnode, ?_⟩
  rw [Try.answer, OpenFile.ofPath, hid]
  dsimp only
  cases t.shut? id <;> rfl

/-- **Files are visited in preorder.**  While the tree does not change and its walk succeeds,
    requests visit the files below the root directory by directory, in the order of names, each
    once, and then there are no more.  The order in which directories list their entries does not
    show.

    No directory lists a name twice; so it is in every tree that changes make (`Made.wellNamed`). -/
theorem visits_in_preorder {root : Bytes} {found : List Bytes} (hnames : t.WellNamed)
    (hwalk : t.walk root = .ok found) :
    (∀ path, path ∈ t.preorder root ↔ t.Below root path ∧ t.IsFile path) ∧
    (t.preorder root).Nodup ∧
    (∀ path ∈ t.preorder root, ∃ id content, t.node? id = some (.file content) ∧
      Try.answer ⟨path, t⟩ = match t.shut? id with
        | some error => .failed error
        | none => .stream { node := id }) ∧
    ∀ n, Serves root (t.preorder root) (List.replicate (n + 1) t)
        (requests (List.replicate (n + 1) t) { root }) ∧
      ∀ t', t.Relisted t' → requests (List.replicate n t') { root } =
        requests (List.replicate n t) { root } := by
  have hfiles := FileTree.files_eq_preorder hnames hwalk
  have hordered := FileTree.pairwise_preorder hnames root
  have hmem (path : Bytes) : path ∈ t.preorder root ↔ t.Below root path ∧ t.IsFile path := by
    rw [← (FileTree.perm_preorder hwalk).mem_iff]
    exact (FileTree.gathers_of_walk hwalk).mem_iff path
  refine ⟨hmem, ?_, ?_, ?_⟩
  · -- the order is strict, so that no path comes twice
    exact hordered.imp fun hlt hsame => Std.ne_of_lt hlt (congrArg Path.names hsame)
  · intro path hpath
    exact answer_of_isFile ((hmem path).mp hpath).2
  · intro n
    constructor
    · rw [List.replicate_succ]
      exact serves_of_files _ hfiles
    · intro t' hsame
      exact requests_congr n (hsame.files_eq hnames hwalk) (funext (hsame.ofPath_eq hnames))

/-- The names `l`, `d.l` and `d` as a directory lists them: a link, a file and another directory. -/
def nestedNames : List (Name × Nat) :=
  [(⟨[108], by decide, by decide, by decide⟩, 4), (⟨[100, 46, 108], by decide, by decide, by decide⟩, 1),
    (⟨[100], by decide, by decide, by decide⟩, 2)]

/-- The directory.  The link leads to the inner directory, which holds a file `e`. -/
def nested : FileTree where
  nodes := #[.directory 0 nestedNames, .file #[49, 10],
    .directory 0 [(⟨[101], by decide, by decide, by decide⟩, 3)], .file #[50, 10], .link [100]]
  root := 0
  current := 0

/-- The same with the outer directory listed the other way round. -/
def nestedReversed : FileTree := nested.setNode 0 (.directory 0 nestedNames.reverse)

theorem nested_wellNamed : nested.WellNamed := FileTree.wellNamed_of_nodes (by decide)

/-- The walk goes through the outer directory as it is listed: the link, the file, the directory. -/
theorem nested_walk :
    nested.walk [46] = .ok [[46, 47, 108, 47, 101], [46, 47, 100, 46, 108], [46, 47, 100, 47, 101]] := by
  have hwalk : nested.walkWithin (FileTree.pathLimit + 1) [46] =
      ExceptT.mk (some (nested.walk [46])) :=
    FileTree.walkWithin_eq _ [46] (by decide) (by decide)
  have hdone : nested.walkWithin (FileTree.pathLimit + 1) [46] = ExceptT.mk (some
      (.ok [[46, 47, 108, 47, 101], [46, 47, 100, 46, 108], [46, 47, 100, 47, 101]])) := by cbv
  exact (Option.some.inj (hdone.symm.trans hwalk)).symm

/-- In order, the inner directory comes before the file, though a full stop is before a slash. -/
theorem nested_preorder :
    nested.preorder [46] = [[46, 47, 100, 47, 101], [46, 47, 100, 46, 108], [46, 47, 108, 47, 101]] := by
  have hfiles := FileTree.files_eq_preorder nested_wellNamed nested_walk
  rw [FileTree.files, nested_walk] at hfiles
  exact (Except.ok.inj hfiles).symm.trans (by cbv)

/-- The file of the inner directory is visited twice, for two paths lead to it.  With the outer
    directory listed the other way round, the visits are the same. -/
theorem visits_in_preorder_nested :
    nested.WellNamed ∧
    nested.walk [46] = .ok [[46, 47, 108, 47, 101], [46, 47, 100, 46, 108], [46, 47, 100, 47, 101]] ∧
    nested.preorder [46] = [[46, 47, 100, 47, 101], [46, 47, 100, 46, 108], [46, 47, 108, 47, 101]] ∧
    nested.Relisted nestedReversed ∧
    (requests (List.replicate 4 nestedReversed) { root := [46] }).answer =
      [.stream ⟨3, 0⟩, .stream ⟨1, 0⟩, .stream ⟨3, 0⟩, .exhausted] := by
  have hrelisted : nested.Relisted nestedReversed := .of_setNode rfl (List.reverse_perm _)
  obtain ⟨-, -, -, hvisits⟩ := visits_in_preorder nested_wellNamed nested_walk
  obtain ⟨hserves, -⟩ := hvisits 3
  obtain ⟨-, hothers⟩ := hvisits 4
  refine ⟨nested_wellNamed, nested_walk, nested_preorder, hrelisted, ?_⟩
  rw [hothers nestedReversed hrelisted, hserves.answer_eq, nested_preorder]
  cbv

end FileStreams

end RecordFeed
