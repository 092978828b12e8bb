/-
  Descending from a root.

  A walk keeps no list of the directories it has been in, and links may lead back up.  What stops it
  are the limits on a path: each entry lies below a longer path, and a path that is too long, or
  that leads through too many links, is refused.

  1. **Reference** (`Child`, `Below`, `refusal?`).  Below a root are the paths that a descent comes
     to, listing one directory after another.  A path is refused if it leads nowhere, or to a
     directory that cannot be listed.

  2. **The walk** (`Gathers`, `walk_spec`, `fails_iff`).  It gives the files below its root if no
     path there is refused, and otherwise fails as one of them is refused.  By induction on the
     walk.

  3. **The depth** (`walkWithin_eq`).  A recursion that is cut off at the depth of the longest path
     comes to the same.

  4. **Loops** (`fails_of_hasLoop`).  Below a directory that comes again below itself there would be
     longer and longer paths: what was descended once can be descended from there again
     (`Child.again`).  So one of them is refused.

  5. **Links** (`fails_of_dangling`).  A path that ends in a link is refused if the target leads
     nowhere.
-/
import Mathlib
import RecordFeed.Proofs.Files.Lookup
import RecordFeed.Proofs.Files.Requests

namespace RecordFeed

namespace FileTree

/-! ## Reference

  A descent is described by what it can come to, and not by the order in which it goes.  That a
  path is refused is a property of this path alone. -/

/-- An entry of the directory that a path leads to, if the directory can be listed. -/
inductive Child (t : FileTree) (path : Bytes) : Bytes → Prop where
  | entry {parent : Nat} {entries : List (Name × Nat)} {entry : Name × Nat}
      (stat_eq : t.stat path = .ok (.directory parent entries))
      (listed : t.unlisted? path = none) (mem : entry ∈ entries) :
      Child t path (Path.join path entry.1.bytes)

/-- What a descent from a root comes to, the root itself included. -/
def Below (t : FileTree) : Bytes → Bytes → Prop := Relation.ReflTransGen t.Child

/-- The path leads to a file. -/
def IsFile (t : FileTree) (path : Bytes) : Prop := ∃ content, t.stat path = .ok (.file content)

/-- Why a path leads nowhere, or to a directory that cannot be listed, if so.  Files may be shut: a
    walk does not open them. -/
def refusal? (t : FileTree) (path : Bytes) : Option IoError :=
  match t.stat path with
  | .error error => some error
  | .ok (.directory _ _) => t.unlisted? path
  | .ok _ => none

/-- The walk from a root gives nothing. -/
def Fails (t : FileTree) (root : Bytes) : Prop := ∃ error, t.walk root = .error error

/-- Below the directory that a path leads to, the same directory comes again.  The two are told
    apart by their paths only. -/
def HasLoop (t : FileTree) (path : Bytes) : Prop :=
  ∃ again, Relation.TransGen t.Child path again ∧ t.lookup again = t.lookup path

/-- The last name of a path is that of a link, in a directory that the names before it lead to. -/
def IsLink (t : FileTree) (path : Bytes) (dir : Nat) (target : Bytes) : Prop :=
  ∃ before name parent entries id,
    Path.steps path = before ++ [.into name] ∧
    t.follow true linkLimit (t.origin t.current path) before = .ok (.found dir) ∧
    t.node? dir = some (.directory parent entries) ∧
    entry? entries name = some id ∧ t.node? id = some (.link target)

/-- From a directory the target of a link leads nowhere, even if it were the first link on the
    way. -/
def LeadsNowhere (t : FileTree) (dir : Nat) (target : Bytes) : Prop :=
  target = [] ∨
    ∀ id, t.follow true linkLimit (t.origin dir target) (Path.steps target) ≠ .ok (.found id)

/-- A walk that is given up below so many directories.  It has three results: files, a failure, and
    that it was given up. -/
def walkWithin (t : FileTree) : Nat → Bytes → ExceptT IoError Option (List Bytes)
  | 0, _ => ExceptT.mk none
  | depth + 1, path =>
    match t.stat path with
    | .error error => ExceptT.mk (some (.error error))
    | .ok (.file _) => ExceptT.mk (some (.ok [path]))
    | .ok (.directory _ entries) =>
      match t.unlisted? path with
      | some error => ExceptT.mk (some (.error error))
      | none => do
        let below ← entries.mapM fun entry => walkWithin t depth (Path.join path entry.1.bytes)
        return below.flatten
    | .ok _ => ExceptT.mk (some (.ok []))

variable {t : FileTree} {root path path' child : Bytes} {dir : Nat} {error : IoError}

/-! ## Lists of results

  A walk goes through the entries of a directory as long as none fails.  So its result is a
  list of results, or the first failure. -/

/-- A list succeeds if all its entries do. -/
theorem mapM_ok {α β ε : Type} {f : α → Except ε β} {xs : List α} {ys : List β}
    (h : xs.mapM f = .ok ys) : xs.map f = ys.map .ok := by
  induction xs generalizing ys with
  | nil =>
    obtain rfl : [] = ys := Except.ok.inj h
    rfl
  | cons x xs ih =>
    rw [List.mapM_cons] at h
    cases hx : f x with
    | error error => rw [hx] at h; cases h
    | ok y =>
      cases hxs : xs.mapM f with
      | error error => rw [hx, hxs] at h; cases h
      | ok rest =>
        rw [hx, hxs] at h
        obtain rfl : y :: rest = ys := Except.ok.inj h
        rw [List.map_cons, List.map_cons, hx, ih hxs]

/-- The results of a list come from its entries, and each entry has one. -/
theorem mem_of_mapM {α β ε : Type} {f : α → Except ε β} {xs : List α} {ys : List β}
    (h : xs.map f = ys.map .ok) :
    (∀ x ∈ xs, ∃ y ∈ ys, f x = .ok y) ∧ ∀ y ∈ ys, ∃ x ∈ xs, f x = .ok y := by
  constructor
  · intro x hx
    have hmem : f x ∈ ys.map .ok := h ▸ List.mem_map_of_mem hx
    obtain ⟨y, hy, heq⟩ := List.mem_map.mp hmem
    exact ⟨y, hy, heq.symm⟩
  · intro y hy
    have hmem : .ok y ∈ xs.map f := h ▸ List.mem_map_of_mem hy
    exact List.mem_map.mp hmem

/-- A list that fails does so as one of its entries, the first that fails. -/
theorem mapM_error {α β ε : Type} {f : α → Except ε β} {xs : List α} {error : ε}
    (h : xs.mapM f = .error error) : ∃ x ∈ xs, f x = .error error := by
  induction xs with
  | nil => cases h
  | cons x xs ih =>
    rw [List.mapM_cons] at h
    cases hx : f x with
    | error first =>
      rw [hx] at h
      obtain rfl : first = error := Except.error.inj h
      exact ⟨x, List.mem_cons_self, hx⟩
    | ok y =>
      cases hxs : xs.mapM f with
      | error later =>
        rw [hx, hxs] at h
        obtain rfl : later = error := Except.error.inj h
        obtain ⟨entry, hentry, hfails⟩ := ih hxs
        exact ⟨entry, List.mem_cons_of_mem _ hentry, hfails⟩
      | ok rest => rw [hx, hxs] at h; cases h

/-! ## The walk

  A walk that succeeds has come to everything below its root, and a walk that fails has come to
  a refused path.  Both are said in one lemma, since the induction needs both: the entries
  behind the failing one are not walked at all. -/

/-- Nothing but the path itself lies below what is not a directory.  Only directories have
    entries. -/
theorem Below.eq_of_stat {node : FileNode} (h : t.Below root path) (hstat : t.stat root = .ok node)
    (hother : ∀ parent entries, node ≠ .directory parent entries) : path = root := by
  obtain rfl | ⟨child, hchild, -⟩ := Relation.ReflTransGen.cases_head h
  · rfl
  · cases hchild with
    | entry hdir _ _ => exact absurd (Except.ok.inj (hstat.symm.trans hdir)) (hother _ _)

/-- Below a directory lie the directory, and what lies below its entries. -/
theorem below_iff {parent : Nat} {entries : List (Name × Nat)}
    (hstat : t.stat root = .ok (.directory parent entries)) (hlisted : t.unlisted? root = none) :
    t.Below root path ↔
      path = root ∨ ∃ entry ∈ entries, t.Below (Path.join root entry.1.bytes) path := by
  constructor
  · intro h
    -- a descent that goes on at all goes into an entry first
    obtain rfl | ⟨child, hchild, hbelow⟩ := Relation.ReflTransGen.cases_head h
    · exact .inl rfl
    · cases hchild with
      | @entry parent' entries' entry hdir _ hmem =>
        obtain ⟨-, rfl⟩ := FileNode.directory.inj (Except.ok.inj (hstat.symm.trans hdir))
        exact .inr ⟨entry, hmem, hbelow⟩
  · rintro (rfl | ⟨entry, hmem, hbelow⟩)
    · exact .refl
    · exact .head (.entry hstat hlisted hmem) hbelow

/-- All the files below a root were found, and no path below it is refused.  This is a walk that
    succeeds, without the order in which it lists. -/
structure Gathers (t : FileTree) (root : Bytes) (found : List Bytes) : Prop where
  clear : ∀ path, t.Below root path → t.refusal? path = none
  mem_iff : ∀ path, path ∈ found ↔ t.Below root path ∧ t.IsFile path

/-- What is not a directory is gathered by itself. -/
theorem Gathers.of_leaf {node : FileNode} {found : List Bytes} (hstat : t.stat root = .ok node)
    (hother : ∀ parent entries, node ≠ .directory parent entries)
    (hfound : ∀ path, path ∈ found ↔ path = root ∧ ∃ content, node = .file content) :
    t.Gathers root found := by
  have hbelow (path : Bytes) (h : t.Below root path) : path = root := h.eq_of_stat hstat hother
  constructor
  · intro path h
    rw [hbelow path h, refusal?, hstat]
    cases node with
    | directory parent entries => exact absurd rfl (hother parent entries)
    | file | link | special => rfl
  · intro path
    rw [hfound]
    constructor
    · rintro ⟨rfl, content, rfl⟩
      exact ⟨.refl, content, hstat⟩
    · rintro ⟨h, content, hfile⟩
      obtain rfl := hbelow path h
      exact ⟨rfl, content, Except.ok.inj (hstat.symm.trans hfile)⟩

/-- A directory is gathered entry by entry: its files are those of all its entries. -/
theorem Gathers.of_entries {parent : Nat} {entries : List (Name × Nat)} {found : List (List Bytes)}
    (hstat : t.stat root = .ok (.directory parent entries)) (hlisted : t.unlisted? root = none)
    (hdone : ∀ entry ∈ entries, ∃ below ∈ found, t.Gathers (Path.join root entry.1.bytes) below)
    (hfrom : ∀ below ∈ found, ∃ entry ∈ entries, t.Gathers (Path.join root entry.1.bytes) below) :
    t.Gathers root found.flatten := by
  constructor
  · intro path h
    -- the directory itself is not refused, since it can be listed
    obtain rfl | ⟨entry, hmem, hbelow⟩ := (below_iff hstat hlisted).mp h
    · rw [refusal?, hstat]
      exact hlisted
    · obtain ⟨below, -, hgathers⟩ := hdone entry hmem
      exact hgathers.clear path hbelow
  · intro path
    rw [List.mem_flatten]
    constructor
    · rintro ⟨below, hmem, hpath⟩
      obtain ⟨entry, hentry, hgathers⟩ := hfrom below hmem
      obtain ⟨hbelow, hfile⟩ := (hgathers.mem_iff path).mp hpath
      exact ⟨(below_iff hstat hlisted).mpr (.inr ⟨entry, hentry, hbelow⟩), hfile⟩
    · rintro ⟨h, hfile⟩
      obtain rfl | ⟨entry, hentry, hbelow⟩ := (below_iff hstat hlisted).mp h
      · obtain ⟨content, hcontent⟩ := hfile
        cases hstat.symm.trans hcontent
      · obtain ⟨below, hmem, hgathers⟩ := hdone entry hentry
        exact ⟨below, hmem, (hgathers.mem_iff path).mpr ⟨hbelow, hfile⟩⟩

/-- **What a walk comes to.** By induction on it: a directory is as good as its entries, and
    anything else is decided on the spot. -/
theorem walk_spec (t : FileTree) (root : Bytes) :
    match t.walk root with
    | .ok found => t.Gathers root found
    | .error error => ∃ path, t.Below root path ∧ t.refusal? path = some error := by
  fun_induction walk t root with
  | case1 root error hstat => exact ⟨root, .refl, by rw [refusal?, hstat]⟩
  | case2 root content hstat => exact .of_leaf hstat nofun fun path => by simp
  | case3 root parent entries hstat error hshut =>
    exact ⟨root, .refl, by rw [refusal?, hstat]; exact hshut⟩
  | case4 root parent entries hstat hlisted ih =>
    cases hmap : entries.mapM fun entry => t.walk (Path.join root entry.1.bytes) with
    | error error =>
      -- the failure is the one of an entry, and it lies below the directory too
      obtain ⟨entry, hmem, hfails⟩ := mapM_error hmap
      have hentry := ih entry
      rw [hfails] at hentry
      obtain ⟨path, hbelow, hrefused⟩ := hentry
      exact ⟨path, (below_iff hstat hlisted).mpr (.inr ⟨entry, hmem, hbelow⟩), hrefused⟩
    | ok found =>
      -- every entry was walked, and gathered what lies below it
      have hgathers (entry : Name × Nat) (below : List Bytes)
          (hwalk : t.walk (Path.join root entry.1.bytes) = .ok below) :
          t.Gathers (Path.join root entry.1.bytes) below := by
        have hentry := ih entry
        rwa [hwalk] at hentry
      obtain ⟨hdone, hfrom⟩ := mem_of_mapM (mapM_ok hmap)
      refine .of_entries hstat hlisted (fun entry hmem => ?_) fun below hmem => ?_
      · obtain ⟨below, hbelow, hwalk⟩ := hdone entry hmem
        exact ⟨below, hbelow, hgathers entry below hwalk⟩
      · obtain ⟨entry, hentry, hwalk⟩ := hfrom below hmem
        exact ⟨entry, hentry, hgathers entry below hwalk⟩
  | case5 root node hnofile hnodir hstat =>
    refine .of_leaf hstat hnodir fun path => ?_
    constructor
    · intro h
      cases h
    · rintro ⟨-, content, rfl⟩
      exact (hnofile content rfl).elim

theorem gathers_of_walk {found : List Bytes} (h : t.walk root = .ok found) : t.Gathers root found := by
  have hspec := walk_spec t root
  rwa [h] at hspec

theorem refused_of_walk (h : t.walk root = .error error) :
    ∃ path, t.Below root path ∧ t.refusal? path = some error := by
  have hspec := walk_spec t root
  rwa [h] at hspec

/-- **A walk fails if a path below its root is refused, and only then.** -/
theorem fails_iff : t.Fails root ↔ ∃ path, t.Below root path ∧ (t.refusal? path).isSome := by
  constructor
  · rintro ⟨error, herror⟩
    obtain ⟨path, hbelow, hrefused⟩ := refused_of_walk herror
    exact ⟨path, hbelow, by rw [hrefused]; rfl⟩
  · rintro ⟨path, hbelow, hrefused⟩
    cases hwalk : t.walk root with
    | error error => exact ⟨error, hwalk⟩
    | ok found =>
      rw [(gathers_of_walk hwalk).clear path hbelow] at hrefused
      cases hrefused

/-! ## The depth

  That the walk ends is known from its definition, which goes by the length of a path.  This
  says more: there is a bound on the depth, the same for all trees. -/

/-- A list is done once its entries are. -/
theorem mapM_done {α β ε : Type} {f : α → ExceptT ε Option β} {g : α → Except ε β} {xs : List α}
    (h : ∀ x ∈ xs, f x = ExceptT.mk (some (g x))) : xs.mapM f = ExceptT.mk (some (xs.mapM g)) := by
  induction xs with
  | nil => rfl
  | cons x xs ih =>
    obtain ⟨hx, hxs⟩ := List.forall_mem_cons.mp h
    rw [List.mapM_cons, List.mapM_cons, hx, ih hxs]
    cases g x with
    | error error => rfl
    | ok y => cases xs.mapM g <;> rfl

/-- **A depth that allows for the longest path is enough.** By induction on the depth.  A path is
    longer than the one above it, so that the limit on paths is met before the depth is used up. -/
theorem walkWithin_eq (depth : Nat) (path : Bytes) (h : pathLimit < depth + path.length)
    (hpos : 0 < depth) : t.walkWithin depth path = ExceptT.mk (some (t.walk path)) := by
  induction depth generalizing path with
  | zero => omega
  | succ depth ih =>
    fun_cases walk t path with
    | case1 error hstat => rw [walkWithin, hstat]
    | case2 content hstat => rw [walkWithin, hstat]
    | case3 parent entries hstat error hshut =>
      rw [walkWithin, hstat]
      simp only [hshut]
    | case4 parent entries hstat hlisted =>
      -- the path leads somewhere, so that it is within the limit and a deeper walk is left
      have hlimit := length_lt_of_stat hstat
      have hentries (entry : Name × Nat) (_ : entry ∈ entries) :
          t.walkWithin depth (Path.join path entry.1.bytes) =
            ExceptT.mk (some (t.walk (Path.join path entry.1.bytes))) := by
        have hlonger : path.length < (Path.join path entry.1.bytes).length :=
          Path.length_lt_join entry.1.nonempty
        exact ih _ (by omega) (by omega)
      rw [walkWithin, hstat]
      simp only [hlisted]
      rw [mapM_done hentries]
      cases entries.mapM fun entry => t.walk (Path.join path entry.1.bytes) <;> rfl
    | case5 node hnofile hnodir hstat =>
      rw [walkWithin, hstat]
      cases node with
      | file content => exact absurd rfl (hnofile content)
      | directory parent entries => exact absurd rfl (hnodir parent entries)
      | link | special => rfl

/-! ## Loops

  A link may lead to a directory further up, and the walk does not notice.  What it does notice
  is that paths become longer.  So a loop is found at the limit of paths, unless another path
  was refused before. -/

theorem exists_lookup (h : t.refusal? path = none) : ∃ id, t.lookup path = .ok id := by
  cases hfound : t.lookup path with
  | ok id => exact ⟨id, rfl⟩
  | error error =>
    rw [refusal?, stat, hfound] at h
    cases h

theorem length_lt_of_clear (h : t.refusal? path = none) : path.length < pathLimit := by
  cases hstat : t.stat path with
  | ok node => exact length_lt_of_stat hstat
  | error error =>
    rw [refusal?, hstat] at h
    cases h

/-- An entry lies below a longer path than its directory. -/
theorem Child.length_lt (h : t.Child path child) : path.length < child.length := by
  cases h with
  | @entry parent entries entry _ _ _ => exact Path.length_lt_join entry.1.nonempty

/-- Each descent comes to longer paths. -/
theorem length_lt_of_transGen (h : Relation.TransGen t.Child path child) :
    path.length < child.length := by
  induction h with
  | single hchild => exact hchild.length_lt
  | tail _ hchild ih => exact Nat.lt_trans ih hchild.length_lt

/-- **A directory has the same entries wherever it is come to.** -/
theorem Child.again (hclear : ∀ path, t.Below root path → t.refusal? path = none)
    (hpath : t.Below root path) (hpath' : t.Below root path') (hsame : t.lookup path' = t.lookup path)
    (h : t.Child path child) : ∃ child', t.Child path' child' ∧ t.lookup child' = t.lookup child := by
  have hchild := hpath.tail h
  cases h with
  | @entry parent entries entry hstat hlisted hmem =>
    -- the other path leads to the same directory, and so it has the same entry
    have hstat' : t.stat path' = .ok (.directory parent entries) := by
      rw [stat, hsame, ← stat, hstat]
    have hlisted' : t.unlisted? path' = none := by rw [unlisted?, hsame, ← unlisted?, hlisted]
    have hagain : t.Child path' (Path.join path' entry.1.bytes) := .entry hstat' hlisted' hmem
    obtain ⟨dir, hdir⟩ := exists_lookup (hclear path hpath)
    obtain ⟨id, hid⟩ := exists_lookup (hclear _ hchild)
    obtain ⟨id', hid'⟩ := exists_lookup (hclear _ (hpath'.tail hagain))
    refine ⟨_, hagain, ?_⟩
    -- what a name leads to depends on the directory only
    rw [hid, hid', lookup_join_congr hdir (hsame.trans hdir) hid hid']

/-- What can be descended from a directory can be descended from wherever it is come to again.  By
    induction on the descent, each step of which can be made again. -/
theorem transGen_again (hclear : ∀ path, t.Below root path → t.refusal? path = none)
    (hpath : t.Below root path) (hpath' : t.Below root path') (hsame : t.lookup path' = t.lookup path)
    (h : Relation.TransGen t.Child path child) :
    ∃ child', Relation.TransGen t.Child path' child' ∧ t.lookup child' = t.lookup child := by
  induction h with
  | single hchild =>
    obtain ⟨child', hchild', hlookup⟩ := hchild.again hclear hpath hpath' hsame
    exact ⟨child', .single hchild', hlookup⟩
  | tail hdescent hchild ih =>
    obtain ⟨middle, hmiddle, hlookup⟩ := ih
    obtain ⟨child', hchild', hlookup'⟩ := hchild.again hclear (hpath.trans hdescent.to_reflTransGen)
      (hpath'.trans hmiddle.to_reflTransGen) hlookup
    exact ⟨child', hmiddle.tail hchild', hlookup'⟩

/-- **A loop makes the walk fail.**  Otherwise there would be a path of any length below the
    root. -/
theorem fails_of_hasLoop (hpath : t.Below root path) (hloop : t.HasLoop path) : t.Fails root := by
  cases hwalk : t.walk root with
  | error error => exact ⟨error, hwalk⟩
  | ok found =>
    exfalso
    have hclear := (gathers_of_walk hwalk).clear
    obtain ⟨again, hagain, hsame⟩ := hloop
    -- each time round the loop comes to the same directory by a longer path
    have hlong (n : Nat) : ∃ far, t.Below root far ∧ n ≤ far.length ∧ t.lookup far = t.lookup path := by
      induction n with
      | zero => exact ⟨path, hpath, Nat.zero_le _, rfl⟩
      | succ n ih =>
        obtain ⟨far, hfar, hlength, hlookup⟩ := ih
        obtain ⟨farther, hdescent, hlookup'⟩ := transGen_again hclear hpath hfar hlookup hagain
        have hlonger := length_lt_of_transGen hdescent
        exact ⟨farther, hfar.trans hdescent.to_reflTransGen, by omega, hlookup'.trans hsame⟩
    obtain ⟨far, hfar, hlength, -⟩ := hlong pathLimit
    -- but paths that long are refused
    have hshort := length_lt_of_clear (hclear far hfar)
    omega

/-! ## Links

  A link that leads nowhere is an entry of its directory, and a walk looks every entry up.  So
  the walk fails, even though no file is missing. -/

/-- An entry of a directory that is a link is a link by its path as well.  The way to the directory
    is the way of all steps but the last one. -/
theorem isLink_join {parent id : Nat} {entries : List (Name × Nat)} {name : Name} {target : Bytes}
    (hdir : t.lookup path = .ok dir) (hnode : t.node? dir = some (.directory parent entries))
    (hentry : entry? entries name.bytes = some id) (hlink : t.node? id = some (.link target)) :
    t.IsLink (Path.join path name.bytes) dir target := by
  obtain ⟨hpath, -⟩ := follow_of_lookup hdir
  obtain ⟨left, hleads⟩ := leads_of_lookup hdir
  refine ⟨_, name.bytes, parent, entries, id, Path.steps_join path name, ?_, hnode, hentry, hlink⟩
  rw [origin_join hpath]
  exact hleads.follow_eq

/-- **A link that leads nowhere makes the walk fail.** A look-up of the path would have to go
    through the target, with a link less to spare. -/
theorem fails_of_dangling {target : Bytes} (hpath : t.Below root path)
    (hlink : t.IsLink path dir target) (hnowhere : t.LeadsNowhere dir target) : t.Fails root := by
  refine fails_iff.mpr ⟨path, hpath, Option.isSome_iff_ne_none.mpr fun hclear => ?_⟩
  obtain ⟨id, hid⟩ := exists_lookup hclear
  obtain ⟨before, name, parent, entries, link, hsteps, hbefore, hdir, hentry, htarget⟩ := hlink
  obtain ⟨-, hfollow⟩ := follow_of_lookup hid
  obtain ⟨left, hleads⟩ := leads_of_follow hfollow
  rw [hsteps] at hleads
  -- the look-up goes as far as the directory, and then takes the last step
  obtain ⟨between, middle, hfirst, hlast⟩ := hleads.of_append
  obtain ⟨_, hbefore⟩ := leads_of_follow hbefore
  obtain rfl := hfirst.unique hbefore
  -- the directory has one entry of the name, and this is the link
  have hchild {parent' child : Nat} {entries' : List (Name × Nat)}
      (hdir' : t.node? middle = some (.directory parent' entries'))
      (hentry' : entry? entries' name = some child) : child = link := by
    obtain ⟨-, rfl⟩ := FileNode.directory.inj (Option.some.inj (hdir'.symm.trans hdir))
    exact Option.some.inj (hentry'.symm.trans hentry)
  -- the last step goes into the link, and so it goes on with the target
  cases hlast with
  | into hdir' _ hentry' hnolink _ =>
    obtain rfl := hchild hdir' hentry'
    exact hnolink target htarget
  | link hdir' _ hentry' hlink' hsome hrest =>
    obtain rfl := hchild hdir' hentry'
    obtain rfl := FileNode.link.inj (Option.some.inj (htarget.symm.trans hlink'))
    rw [List.append_nil] at hrest
    have hbetween := hfirst.left_le
    obtain ⟨_, hfound⟩ :
        ∃ left, t.Leads linkLimit (t.origin middle target) (Path.steps target) left id :=
      hrest.mono (by omega)
    rcases hnowhere with rfl | hnone
    · exact hsome rfl
    · exact hnone id hfound.follow_eq

end FileTree

namespace FileStreams

open FileTree (pathLimit)

/-- **A walk ends, and finds all the files below its root or fails.**  It fails if a path that it
    comes to is refused, and only then; so it fails if it comes to a directory that is below
    itself, or to a link that leads nowhere.  The failure is answered once, and then there are no
    files. -/
theorem walk_all_or_nothing (t : FileTree) (root : Bytes) :
    t.walkWithin (pathLimit + 1) root = ExceptT.mk (some (t.walk root)) ∧
    (t.Fails root ↔ ∃ path, t.Below root path ∧ (t.refusal? path).isSome) ∧
    (∀ path, t.Below root path → t.HasLoop path → t.Fails root) ∧
    (∀ path dir target, t.Below root path → t.IsLink path dir target → t.LeadsNowhere dir target →
      t.Fails root) ∧
    ∀ error, t.walk root = .error error →
      (∃ path, t.Below root path ∧ t.refusal? path = some error) ∧
      ∀ later : List FileTree,
        let reply := FileStreams.requests (t :: later) { root }
        reply.answer = .failed error :: List.replicate later.length .exhausted ∧
        reply.next.remaining = some 0 ∧ reply.next.currentPath = none ∧ reply.events = [] := by
  refine ⟨?_, FileTree.fails_iff, ?_, ?_, ?_⟩
  · apply FileTree.walkWithin_eq
    · omega
    · omega
  · intro path hpath hloop
    exact FileTree.fails_of_hasLoop hpath hloop
  · intro path dir target hpath hlink hnowhere
    exact FileTree.fails_of_dangling hpath hlink hnowhere
  · intro error hwalk
    have hfiles : t.files root = .error error := by
      rw [FileTree.files, hwalk]
      rfl
    refine ⟨FileTree.refused_of_walk hwalk, ?_⟩
    intro later
    dsimp only
    rw [requests_of_error later hfiles]
    exact ⟨rfl, rfl, rfl, rfl⟩

/-- The name `z` of a link that leads nowhere. -/
def danglingName : Name := ⟨[122], by decide, by decide, by decide⟩

/-- The names of a file, of a link back to the directory that all are in, and of the other link. -/
def tangledNames : List (Name × Nat) :=
  [(⟨[120], by decide, by decide, by decide⟩, 1), (⟨[121], by decide, by decide, by decide⟩, 2),
    (danglingName, 3)]

/-- A directory with a file, a link `y` to the directory itself, and a link `z` to a name that is
    missing. -/
def tangled : FileTree where
  nodes := #[.directory 0 tangledNames, .file #[49, 10], .link [46], .link [119]]
  root := 0
  current := 0

/-- The walk of the tangled directory fails, both for the loop through `y` and for the link `z`.  It
    is answered as it failed, and then there are no files. -/
theorem walk_all_or_nothing_tangled :
    tangled.Below [46] [46] ∧ tangled.HasLoop [46] ∧
    tangled.IsLink (Path.join [46] danglingName.bytes) 0 [119] ∧ tangled.LeadsNowhere 0 [119] ∧
    tangled.Fails [46] ∧
    ∃ error path, tangled.walk [46] = .error error ∧ tangled.refusal? path = some error ∧
      (FileStreams.requests [tangled, tangled, tangled] { root := [46] }).answer =
        [.failed error, .exhausted, .exhausted] := by
  have hstat : tangled.stat [46] = .ok (.directory 0 tangledNames) := by cbv
  have hlisted : tangled.unlisted? [46] = none := by cbv
  have hentry (entry : Name × Nat) (hmem : entry ∈ tangledNames) :
      tangled.Child [46] (Path.join [46] entry.1.bytes) := .entry hstat hlisted hmem
  have hloop : tangled.HasLoop [46] := ⟨[46, 47, 121], .single (hentry _ (.tail _ (.head _))), by cbv⟩
  have hlink : tangled.IsLink (Path.join [46] danglingName.bytes) 0 [119] :=
    FileTree.isLink_join (by cbv) rfl rfl rfl
  have hnowhere : tangled.LeadsNowhere 0 [119] := by
    refine .inr fun id hfound => ?_
    have hmissing : tangled.follow true FileTree.linkLimit (tangled.origin 0 [119])
        (Path.steps [119]) = .ok (.missing 0 [119]) := by cbv
    cases hmissing.symm.trans hfound
  obtain ⟨-, -, hloops, hlinks, hfails⟩ := walk_all_or_nothing tangled [46]
  have hdangling : tangled.Fails [46] :=
    hlinks _ 0 [119] (.single (hentry _ (.tail _ (.tail _ (.head _))))) hlink hnowhere
  obtain ⟨error, herror⟩ := hdangling
  obtain ⟨⟨path, -, hrefused⟩, hanswers⟩ := hfails error herror
  exact ⟨.refl, hloop, hlink, hnowhere, hloops [46] .refl hloop, error, path, herror, hrefused,
    (hanswers [tangled, tangled]).1⟩

end FileStreams

end RecordFeed
