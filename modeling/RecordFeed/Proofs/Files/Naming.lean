/-
  The names within a directory.

  A look-up goes to the first entry of a name, and a walk goes to every entry.  They agree as long
  as the names within each directory differ (`WellNamed`), and in every tree that was made by
  changes they do (`Made.wellNamed`): a name is given only where a look-up has found it missing.
-/
import Mathlib.Data.List.Nodup
import RecordFeed.FileTree.Change
import RecordFeed.Proofs.Files.Lookup

namespace RecordFeed

/-- The names of some entries differ: of two entries, at most one answers to a name. -/
def DistinctNames (entries : List (Name × Nat)) : Prop :=
  (entries.map fun entry => entry.1.bytes).Nodup

theorem DistinctNames.perm {entries entries' : List (Name × Nat)} (h : DistinctNames entries)
    (hperm : entries'.Perm entries) : DistinctNames entries' :=
  (hperm.map fun entry : Name × Nat => entry.1.bytes).nodup_iff.mpr h

/-- The names within a directory differ. -/
def FileNode.WellNamed : FileNode → Prop
  | .directory _ entries => DistinctNames entries
  | _ => True

instance : DecidablePred FileNode.WellNamed
  | .directory _ entries => inferInstanceAs (Decidable (entries.map fun entry => entry.1.bytes).Nodup)
  | .file _ | .link _ | .special => .isTrue trivial

theorem Name.bytes_of_of? {bytes : Bytes} {name : Name} (h : Name.of? bytes = some name) :
    name.bytes = bytes := by
  rw [Name.of?] at h
  split at h
  · obtain rfl := Option.some.inj h
    rfl
  · cases h

namespace FileTree

/-- The names within each directory differ. -/
def WellNamed (t : FileTree) : Prop := ∀ id node, t.node? id = some node → node.WellNamed

/-- The trees that changes make, from `empty` on.  Each change can be refused, and then makes
    none. -/
inductive Made : FileTree → Prop where
  | empty : Made empty
  | placeDirectory {t t' : FileTree} {path : Bytes} (made : Made t)
      (eq : t.placeDirectory? path = some t') : Made t'
  | rewriteFile {t t' : FileTree} {path : Bytes} {content : Array UInt8 → Array UInt8} (made : Made t)
      (eq : t.rewriteFile? path content = some t') : Made t'
  | placeLink {t t' : FileTree} {path target : Bytes} (made : Made t)
      (eq : t.placeLink? path target = some t') : Made t'
  | remove {t t' : FileTree} {path : Bytes} (made : Made t) (eq : t.remove? path = some t') : Made t'
  | obstruct {t t' : FileTree} {path : Bytes} {obstacle : Obstacle} (made : Made t)
      (eq : t.obstruct? path obstacle = some t') : Made t'

variable {t t' : FileTree} {dir id parent : Nat} {name : Name} {bytes path : Bytes} {node : FileNode}
  {entries entries' : List (Name × Nat)}

/-! ## What a directory holds under a name

  Where names differ, it does not matter which entry of a name a look-up takes, nor in which
  order it goes through them. -/

/-- It holds what any of its entries says.  A look-up takes the first entry of the name, and there
    is no second one. -/
theorem entry?_eq_some_iff (h : DistinctNames entries) :
    entry? entries bytes = some id ↔ ∃ entry ∈ entries, entry.1.bytes = bytes ∧ entry.2 = id := by
  unfold entry?
  rw [Option.map_eq_some_iff]
  constructor
  · rintro ⟨entry, hfind, hid⟩
    exact ⟨entry, List.mem_of_find?_eq_some hfind, by simpa using List.find?_some hfind, hid⟩
  · rintro ⟨entry, hmem, hname, hid⟩
    cases hfind : entries.find? fun entry => entry.1.bytes == bytes with
    | none =>
      have hother := List.find?_eq_none.mp hfind entry hmem
      exact absurd (beq_iff_eq.mpr hname) hother
    | some first =>
      have hfirst : first.1.bytes = bytes := by simpa using List.find?_some hfind
      have hsame : first = entry :=
        List.inj_on_of_nodup_map h (List.mem_of_find?_eq_some hfind) hmem (hfirst.trans hname.symm)
      exact ⟨first, rfl, hsame ▸ hid⟩

/-- In which order the entries are listed makes no difference. -/
theorem entry?_perm (h : DistinctNames entries) (hperm : entries'.Perm entries) :
    entry? entries' = entry? entries := by
  funext name
  apply Option.ext
  intro id
  rw [entry?_eq_some_iff h, entry?_eq_some_iff (h.perm hperm)]
  simp only [hperm.mem_iff]

/-- It is enough to look through the nodes, as a tree has no other directories. -/
theorem wellNamed_of_nodes (h : ∀ node ∈ t.nodes.toList, node.WellNamed) : t.WellNamed := by
  intro id node hnode
  exact h node (Array.mem_toList_iff.mpr (Array.mem_of_getElem? hnode))

/-- A directory that a path leads to is one of the directories of the tree. -/
theorem WellNamed.of_stat (h : t.WellNamed) (hstat : t.stat path = .ok (.directory parent entries)) :
    DistinctNames entries := by
  obtain ⟨id, -, hnode⟩ := node_of_stat hstat
  exact h id _ hnode

/-! ## Where names are missing

  A change makes a node at a path that a look-up has found missing.  What matters is the
  directory that the look-up ended in, for this is where the name is given. -/

theorem name_ne_of_entry? (h : entry? entries bytes = none)
    {entry : Name × Nat} (hmem : entry ∈ entries) : entry.1.bytes ≠ bytes := by
  unfold entry? at h
  rw [Option.map_eq_none_iff] at h
  simpa using List.find?_eq_none.mp h entry hmem

/-- A name that a look-up finds missing is missing in its directory.  By induction on the steps.  On
    the way the look-up may have gone through links, so that the directory need not be one that the
    path names. -/
theorem entry?_of_missing {followLast : Bool} {links : Nat} {steps : List Path.Step}
    (h : t.follow followLast links id steps = .ok (.missing dir bytes)) :
    ∃ parent entries, t.node? dir = some (.directory parent entries) ∧ entry? entries bytes = none := by
  fun_induction follow t followLast links id steps with
  | case2 _ _ _ _ _ _ ih | case3 _ _ _ _ _ _ ih => exact ih h
  | case5 links id rest parent entries hdir name hshort hentry hlast =>
    obtain ⟨rfl, rfl⟩ := Place.missing.inj (Except.ok.inj h)
    exact ⟨parent, entries, hdir, hentry⟩
  | case10 id rest parent entries hdir name hshort child hentry target hlink hlast links hsome ih =>
    exact ih h
  | case11 links id rest parent entries hdir name hshort child hentry hnolink ih => exact ih h
  | case1 | case4 | case6 | case7 | case8 | case9 | case12 => cases h

/-! ## Nodes and entries

  The changes are put together from a few of their own: a node is exchanged or added, and an
  entry is added or taken away. -/

namespace WellNamed

theorem setNode (h : t.WellNamed) (id : Nat) (hnode : node.WellNamed) :
    (t.setNode id node).WellNamed := by
  intro other node' hother
  rw [node?, FileTree.setNode, Array.getElem?_setIfInBounds] at hother
  -- at the number in question stands the new node, and everywhere else what stood there
  split at hother
  · split at hother
    · obtain rfl := Option.some.inj hother
      exact hnode
    · cases hother
  · exact h other node' hother

/-- A node whose names differ can be added.  No directory knows of it yet. -/
theorem push (h : t.WellNamed) (hnode : node.WellNamed) :
    ({ t with nodes := t.nodes.push node } : FileTree).WellNamed := by
  intro other node' hother
  rw [node?, Array.getElem?_push] at hother
  split at hother
  · obtain rfl := Option.some.inj hother
    exact hnode
  · exact h other node' hother

/-- A name that is missing can be given.  This is where a second entry of one name would come
    from. -/
theorem addEntry (h : t.WellNamed) (hdir : t.node? dir = some (.directory parent entries))
    (hmissing : entry? entries name.bytes = none) (hnode : node.WellNamed) :
    (t.addEntry dir name node).WellNamed := by
  rw [FileTree.addEntry, hdir]
  refine (h.push hnode).setNode dir ?_
  have hentries : DistinctNames entries := h dir _ hdir
  rw [FileNode.WellNamed, DistinctNames, List.map_append, List.nodup_append]
  refine ⟨hentries, List.nodup_singleton _, ?_⟩
  intro bytes hmem other hother
  obtain ⟨entry, hentry, rfl⟩ := List.mem_map.mp hmem
  obtain rfl := List.mem_singleton.mp hother
  exact name_ne_of_entry? hmissing hentry

/-- Names can be taken away. -/
theorem removeEntry (h : t.WellNamed) (dir : Nat) (bytes : Bytes) :
    (t.removeEntry dir bytes).WellNamed := by
  rw [FileTree.removeEntry]
  split
  · rename_i parent entries hdir
    -- some of the names that were there stay
    have hentries : DistinctNames entries := h dir _ hdir
    exact h.setNode dir (List.Nodup.sublist (List.filter_sublist.map _) hentries)
  · exact h

/-! ## Changes

  One lemma for each change, and for each part that several of them share.  Those that look a
  path up first give a name only where it was missing. -/

/-- A node is made where a look-up has found its name missing.  All changes that make a node come
    down to this. -/
theorem create? (h : t.WellNamed) (hdir : t.node? dir = some (.directory parent entries))
    (hmissing : entry? entries bytes = none)
    (hmade : t.create? dir bytes node = some t') (hnode : node.WellNamed) : t'.WellNamed := by
  obtain ⟨name, hname, hadd⟩ := Option.bind_eq_some_iff.mp hmade
  obtain rfl := Option.some.inj hadd
  refine h.addEntry hdir ?_ hnode
  rwa [Name.bytes_of_of? hname]

/-- Entering a directory that does not exist makes it, with no names in it. -/
theorem enter? {step : Path.Step} (h : t.WellNamed) (henter : t.enter? dir step = some (t', id)) :
    t'.WellNamed := by
  rw [FileTree.enter?] at henter
  split at henter
  · obtain ⟨rfl, -⟩ := Prod.mk.inj (Option.some.inj henter)
    exact h
  · split at henter
    · rename_i hfollow
      -- the directory is made where the look-up has missed it
      obtain ⟨parent, entries, hdir, hmissing⟩ := entry?_of_missing hfollow
      obtain ⟨name, hname, hadd⟩ := Option.bind_eq_some_iff.mp henter
      obtain ⟨rfl, -⟩ := Prod.mk.inj (Option.some.inj hadd)
      refine h.addEntry hdir ?_ List.nodup_nil
      rwa [Name.bytes_of_of? hname]
    · cases henter

/-- All steps on the way to a directory keep the names apart.  By induction on the steps, each of
    which may make a directory. -/
theorem enterAll? {steps : List Path.Step} (h : t.WellNamed)
    (henter : t.enterAll? dir steps = some (t', id)) : t'.WellNamed := by
  induction steps generalizing t dir with
  | nil =>
    obtain ⟨rfl, -⟩ := Prod.mk.inj (Option.some.inj henter)
    exact h
  | cons step rest ih =>
    obtain ⟨⟨t₁, dir₁⟩, hstep, hrest⟩ := Option.bind_eq_some_iff.mp henter
    exact ih (h.enter? hstep) hrest

/-- The way to the last name of a path enters directories, and makes those that are missing.  The
    last name itself is not touched. -/
theorem above? (h : t.WellNamed) (habove : t.above? path = some (t', dir, bytes)) : t'.WellNamed := by
  rw [FileTree.above?] at habove
  split at habove
  · obtain ⟨⟨t₁, dir₁⟩, henter, hlast⟩ := Option.bind_eq_some_iff.mp habove
    obtain ⟨rfl, -⟩ := Prod.mk.inj (Option.some.inj hlast)
    exact h.enterAll? henter
  · cases habove

/-- A directory is placed by entering it. -/
theorem placeDirectory? (h : t.WellNamed) (hplace : t.placeDirectory? path = some t') :
    t'.WellNamed := by
  obtain ⟨⟨t₁, dir₁⟩, henter, rfl⟩ := Option.map_eq_some_iff.mp hplace
  exact h.enterAll? henter

/-- A file that exists gets another content, and this changes no names.  One that does not exist is
    made in the directory where its name was found missing. -/
theorem rewriteFile? {content : Array UInt8 → Array UInt8} (h : t.WellNamed)
    (hrewrite : t.rewriteFile? path content = some t') : t'.WellNamed := by
  obtain ⟨⟨t₁, dir, bytes⟩, habove, hlast⟩ := Option.bind_eq_some_iff.mp hrewrite
  have habove' := h.above? habove
  dsimp only at hlast
  split at hlast
  · split at hlast
    · obtain rfl := Option.some.inj hlast
      -- a file takes the place of a file
      exact habove'.setNode _ trivial
    · obtain rfl := Option.some.inj hlast
      exact habove'
    · cases hlast
  · rename_i hfollow
    obtain ⟨parent, entries, hdir, hmissing⟩ := entry?_of_missing hfollow
    exact habove'.create? hdir hmissing hlast trivial
  · cases hlast

/-- A link is made only where its name was found missing. -/
theorem placeLink? {target : Bytes} (h : t.WellNamed) (hplace : t.placeLink? path target = some t') :
    t'.WellNamed := by
  obtain ⟨⟨t₁, dir, bytes⟩, habove, hlast⟩ := Option.bind_eq_some_iff.mp hplace
  dsimp only at hlast
  split at hlast
  · rename_i hfollow
    obtain ⟨parent, entries, hdir, hmissing⟩ := entry?_of_missing hfollow
    exact (h.above? habove).create? hdir hmissing hlast trivial
  · cases hlast

/-- What is removed takes its name away from its directory. -/
theorem remove? (h : t.WellNamed) (hremove : t.remove? path = some t') : t'.WellNamed := by
  obtain ⟨⟨t₁, dir, bytes⟩, habove, hlast⟩ := Option.bind_eq_some_iff.mp hremove
  dsimp only at hlast
  split at hlast
  · obtain rfl := Option.some.inj hlast
    exact (h.above? habove).removeEntry dir bytes
  · cases hlast

/-- An obstacle changes how a node can be used, and no names. -/
theorem obstruct? {obstacle : Obstacle} (h : t.WellNamed)
    (hobstruct : t.obstruct? path obstacle = some t') : t'.WellNamed := by
  rw [FileTree.obstruct?] at hobstruct
  split at hobstruct
  · obtain rfl := Option.some.inj hobstruct
    exact h
  · cases hobstruct

end WellNamed

/-- In the tree that all others are made of, each directory has its names once. -/
theorem empty_wellNamed : WellNamed empty := wellNamed_of_nodes (by decide)

/-- **Names differ in every tree that changes make.**  By induction on the changes. -/
theorem Made.wellNamed (h : t.Made) : t.WellNamed := by
  induction h with
  | empty => exact empty_wellNamed
  | placeDirectory _ heq ih => exact ih.placeDirectory? heq
  | rewriteFile _ heq ih => exact ih.rewriteFile? heq
  | placeLink _ heq ih => exact ih.placeLink? heq
  | remove _ heq ih => exact ih.remove? heq
  | obstruct _ heq ih => exact ih.obstruct? heq

end FileTree

end RecordFeed
