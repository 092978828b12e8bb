/-
  Looking up what lies below a path.

  1. **Names** (`names_join`, `steps_join`).  A name behind a path is one more name, and one more
     step to take, whether the path ends in a slash or not.

  2. **Look-ups that succeed** (`Leads`).  They have the steps of the function, without its
     failures.  The first steps of such a look-up lead somewhere, and the others are taken from
     there, with the links that are left (`Leads.of_append`); links that are not needed make no
     difference (`Leads.mono`).

  3. **An entry of a directory** (`leads_join`, `lookup_join_congr`).  What a name below a path
     leads to depends on the directory that the path leads to, and on nothing else of the path.

  4. **Other trees** (`SameWays`).  A look-up does not look into files, and does not see in which
     order a directory lists its entries.

  5. **A walk** (`walk_of_file`, `walk_of_directory`, `walk_of_other`), as far as the node that its
     path leads to says what it does.
-/
import RecordFeed.FileTree.Walk

namespace RecordFeed

/-! ## Names

  A walk makes paths of names, and a look-up takes paths apart.  The two agree: to join a name
  to a path is to add one name to its list. -/

namespace Path

/-- There is always a piece, even if it is empty. -/
theorem pieces_ne_nil (path : Bytes) : pieces path ≠ [] := by
  cases path with
  | nil => exact List.cons_ne_nil _ _
  | cons b rest =>
    rw [pieces]
    split
    · exact List.cons_ne_nil _ _
    · split <;> exact List.cons_ne_nil _ _

/-- A slash parts the pieces before it from those behind it.  By induction on the bytes before
    it. -/
theorem pieces_append_slash (path more : Bytes) :
    pieces (path ++ slash :: more) = pieces path ++ pieces more := by
  induction path with
  | nil => exact if_pos rfl
  | cons b rest ih =>
    rw [List.cons_append, pieces, pieces, ih]
    by_cases hslash : b = slash
    · rw [if_pos hslash, if_pos hslash]; rfl
    · rw [if_neg hslash, if_neg hslash]
      -- the byte is put before the first piece, and there is one
      cases hpieces : pieces rest with
      | nil => exact absurd hpieces (pieces_ne_nil rest)
      | cons piece others => rfl

theorem pieces_of_plain {path : Bytes} (h : slash ∉ path) : pieces path = [path] := by
  induction path with
  | nil => rfl
  | cons b rest ih =>
    rw [List.mem_cons, not_or] at h
    obtain ⟨hb, hrest⟩ := h
    rw [pieces, if_neg (Ne.symm hb), ih hrest]

/-- Only names count, not the slashes between them: the pieces that are empty drop out on both
    sides. -/
theorem names_append_slash (path more : Bytes) :
    names (path ++ slash :: more) = names path ++ names more := by
  rw [names, pieces_append_slash, List.filter_append]
  rfl

/-- A name is a path of one name. -/
theorem names_bytes (name : Name) : names name.bytes = [name.bytes] := by
  rw [names, pieces_of_plain name.plain]
  simp [name.nonempty]

/-- A path that ends in a slash is another path with a slash behind it. -/
theorem endsInSlash_iff {path : Bytes} :
    endsInSlash path = true ↔ ∃ before, path = before ++ [slash] := by
  rw [endsInSlash, beq_iff_eq, List.getLast?_eq_some_iff]

/-- **A name behind a path is one more name.** -/
theorem names_join (path : Bytes) (name : Name) :
    names (join path name.bytes) = names path ++ [name.bytes] := by
  rw [join]
  split
  · rename_i hslash
    -- the slash at the end of the path is the one between path and name
    obtain ⟨before, rfl⟩ := endsInSlash_iff.mp hslash
    have hbefore : names (before ++ [slash]) = names before := by
      rw [names_append_slash, show names [] = [] from rfl, List.append_nil]
    rw [List.append_assoc, List.singleton_append, names_append_slash, names_bytes, hbefore]
  · rw [names_append_slash, names_bytes]

/-- Behind a name there is no slash, for a name has none in it. -/
theorem endsInSlash_join (path : Bytes) (name : Name) :
    endsInSlash (join path name.bytes) = false := by
  obtain ⟨before, hjoin⟩ : ∃ before, join path name.bytes = before ++ name.bytes := by
    rw [join]
    split
    · exact ⟨path, rfl⟩
    · exact ⟨path ++ [slash], by rw [List.append_assoc, List.singleton_append]⟩
  -- the last byte is one of the name
  have hlast : name.bytes.getLast? ≠ some slash := fun h => name.plain (List.mem_of_getLast? h)
  rw [hjoin, endsInSlash, List.getLast?_append, beq_eq_false_iff_ne]
  cases hbytes : name.bytes.getLast? with
  | none => exact absurd (List.getLast?_eq_none_iff.mp hbytes) name.nonempty
  | some b => rwa [hbytes] at hlast

/-- The last step of a path and a name goes into the name. -/
theorem steps_join (path : Bytes) (name : Name) :
    steps (join path name.bytes) = (names path).map Step.ofName ++ [.into name.bytes] := by
  rw [steps, names_join, endsInSlash_join, List.map_append, List.map_singleton, name.moves]
  exact List.append_nil _

theorem isAbsolute_join {path : Bytes} (hpath : path ≠ []) (name : Bytes) :
    isAbsolute (join path name) = isAbsolute path := by
  obtain ⟨b, rest, rfl⟩ := List.exists_cons_of_ne_nil hpath
  rw [join]
  split <;> rfl

end Path

/-! ## Look-ups that succeed

  The function that follows steps has twelve cases, and seven of them lead to no
  node.  What is said below of paths that lead somewhere needs the other five, and an induction
  that has no failures in it. -/

namespace FileTree

/-- A look-up that succeeds, and how many links are left when it is done.  A link costs one, and its
    target is put before the steps that are left. -/
inductive Leads (t : FileTree) : Nat → Nat → List Path.Step → Nat → Nat → Prop where
  | done {links id : Nat} : Leads t links id [] links id
  | stay {links id left dir parent : Nat} {entries : List (Name × Nat)} {steps : List Path.Step}
      (hdir : t.node? id = some (.directory parent entries)) (rest : Leads t links id steps left dir) :
      Leads t links id (.stay :: steps) left dir
  | up {links id left dir parent : Nat} {entries : List (Name × Nat)} {steps : List Path.Step}
      (hdir : t.node? id = some (.directory parent entries))
      (rest : Leads t links parent steps left dir) : Leads t links id (.up :: steps) left dir
  | into {links id left dir parent child : Nat} {entries : List (Name × Nat)} {name : Bytes}
      {steps : List Path.Step} (hdir : t.node? id = some (.directory parent entries))
      (hshort : ¬ nameLimit < name.length) (hentry : entry? entries name = some child)
      (hnolink : ∀ target, t.node? child ≠ some (.link target))
      (rest : Leads t links child steps left dir) : Leads t links id (.into name :: steps) left dir
  | link {links id left dir parent child : Nat} {entries : List (Name × Nat)} {name target : Bytes}
      {steps : List Path.Step} (hdir : t.node? id = some (.directory parent entries))
      (hshort : ¬ nameLimit < name.length) (hentry : entry? entries name = some child)
      (hlink : t.node? child = some (.link target)) (hsome : ¬ target.isEmpty)
      (rest : Leads t links (t.origin id target) (Path.steps target ++ steps) left dir) :
      Leads t (links + 1) id (.into name :: steps) left dir

variable {t : FileTree} {links links' left left' id dir dir' : Nat} {steps more : List Path.Step}

/-- A look-up that succeeds has such steps.  By induction on the steps: in all the other cases of
    the function it fails, and the hypothesis with it. -/
theorem leads_of_follow (h : t.follow true links id steps = .ok (.found dir)) :
    ∃ left, t.Leads links id steps left dir := by
  fun_induction follow t true links id steps with
  | case1 links id =>
    obtain rfl : id = dir := by simpa using h
    exact ⟨links, .done⟩
  | case2 links id rest parent entries hdir ih =>
    obtain ⟨left, hleads⟩ := ih h
    exact ⟨left, .stay hdir hleads⟩
  | case3 links id rest parent entries hdir ih =>
    obtain ⟨left, hleads⟩ := ih h
    exact ⟨left, .up hdir hleads⟩
  | case10 id rest parent entries hdir name hshort child hentry target hlink hlast links hsome ih =>
    obtain ⟨left, hleads⟩ := ih h
    exact ⟨left, .link hdir hshort hentry hlink hsome hleads⟩
  | case11 links id rest parent entries hdir name hshort child hentry hnolink ih =>
    obtain ⟨left, hleads⟩ := ih h
    exact ⟨left, .into hdir hshort hentry hnolink hleads⟩
  | case7 links id rest parent entries hdir name hshort child hentry target hlink hlast => simp at hlast
  | case4 | case5 | case6 | case8 | case9 | case12 => simp at h

namespace Leads

/-- The function succeeds where this relation says so.  By induction on the relation. -/
theorem follow_eq (h : t.Leads links id steps left dir) :
    t.follow true links id steps = .ok (.found dir) := by
  induction h with
  | done => rw [follow]
  | stay hdir _ ih | up hdir _ ih =>
    rw [follow, hdir]
    exact ih
  | into hdir hshort hentry hnolink _ ih =>
    rw [follow, hdir]
    simp only [hshort, if_false, hentry]
    exact ih
  | link hdir hshort hentry hlink hsome _ ih =>
    rw [follow, hdir]
    simp only [hshort, if_false, hentry, hlink, Bool.not_true, Bool.and_false, Bool.false_eq_true, hsome]
    exact ih

/-- Steps lead to one node only, whatever links are left: the function has one result. -/
theorem unique (h : t.Leads links id steps left dir) (h' : t.Leads links id steps left' dir') :
    dir = dir' := by
  have hsame := h.follow_eq.symm.trans h'.follow_eq
  simpa using hsame

/-- **Links that are not needed make no difference.** By induction on the look-up. -/
theorem mono (h : t.Leads links id steps left dir) (hle : links ≤ links') :
    ∃ left', t.Leads links' id steps left' dir := by
  induction h generalizing links' with
  | done => exact ⟨links', .done⟩
  | stay hdir _ ih =>
    obtain ⟨left', hleads⟩ := ih hle
    exact ⟨left', .stay hdir hleads⟩
  | up hdir _ ih =>
    obtain ⟨left', hleads⟩ := ih hle
    exact ⟨left', .up hdir hleads⟩
  | into hdir hshort hentry hnolink _ ih =>
    obtain ⟨left', hleads⟩ := ih hle
    exact ⟨left', .into hdir hshort hentry hnolink hleads⟩
  | link hdir hshort hentry hlink hsome _ ih =>
    obtain ⟨fewer, rfl⟩ : ∃ fewer, links' = fewer + 1 := ⟨links' - 1, by omega⟩
    obtain ⟨left', hleads⟩ := ih (Nat.le_of_succ_le_succ hle)
    exact ⟨left', .link hdir hshort hentry hlink hsome hleads⟩

theorem left_le (h : t.Leads links id steps left dir) : left ≤ links := by
  induction h with
  | done => exact Nat.le_refl _
  | stay _ _ ih | up _ _ ih | into _ _ _ _ _ ih => exact ih
  | link _ _ _ _ _ _ ih => omega

/-- **A look-up that succeeds has come somewhere before its last steps.** By induction on the
    look-up: a link puts its target before all the steps, so that the last ones are still the
    last. -/
theorem of_append (h : t.Leads links id (steps ++ more) left dir) :
    ∃ between middle, t.Leads links id steps between middle ∧ t.Leads between middle more left dir := by
  generalize hall : steps ++ more = all at h
  induction h generalizing steps with
  | done =>
    obtain ⟨rfl, rfl⟩ := List.append_eq_nil_iff.mp hall
    exact ⟨_, _, .done, .done⟩
  | stay hdir rest ih =>
    obtain ⟨rfl, rfl⟩ | ⟨steps, rfl, rfl⟩ := List.append_eq_cons_iff.mp hall
    · exact ⟨_, _, .done, .stay hdir rest⟩
    · obtain ⟨between, middle, hfirst, hlast⟩ := ih rfl
      exact ⟨between, middle, .stay hdir hfirst, hlast⟩
  | up hdir rest ih =>
    obtain ⟨rfl, rfl⟩ | ⟨steps, rfl, rfl⟩ := List.append_eq_cons_iff.mp hall
    · exact ⟨_, _, .done, .up hdir rest⟩
    · obtain ⟨between, middle, hfirst, hlast⟩ := ih rfl
      exact ⟨between, middle, .up hdir hfirst, hlast⟩
  | into hdir hshort hentry hnolink rest ih =>
    obtain ⟨rfl, rfl⟩ | ⟨steps, rfl, rfl⟩ := List.append_eq_cons_iff.mp hall
    · exact ⟨_, _, .done, .into hdir hshort hentry hnolink rest⟩
    · obtain ⟨between, middle, hfirst, hlast⟩ := ih rfl
      exact ⟨between, middle, .into hdir hshort hentry hnolink hfirst, hlast⟩
  | link hdir hshort hentry hlink hsome rest ih =>
    obtain ⟨rfl, rfl⟩ | ⟨steps, rfl, rfl⟩ := List.append_eq_cons_iff.mp hall
    · -- the link is the first of the last steps
      exact ⟨_, _, .done, .link hdir hshort hentry hlink hsome rest⟩
    · obtain ⟨between, middle, hfirst, hlast⟩ := ih (List.append_assoc _ _ _)
      exact ⟨between, middle, .link hdir hshort hentry hlink hsome hfirst, hlast⟩

end Leads

/-! ## An entry of a directory

  A path and a name are looked up from the beginning, with links counted on the whole way.
  Still the result depends on the directory only: if the way to it took fewer links, the name
  has more of them left, and this makes no difference. -/

variable {path path' : Bytes} {id' : Nat} {name : Name}

/-- What a look-up that succeeds has done: none of the checks before the first step has failed, and
    the steps lead to the node. -/
theorem follow_of_lookup (h : t.lookup path = .ok id) :
    path ≠ [] ∧ t.follow true linkLimit (t.origin t.current path) (Path.steps path) =
      .ok (.found id) := by
  rw [lookup, locate] at h
  split at h
  · rename_i found hplace
    split at hplace
    · simp at hplace
    split at hplace
    · simp at hplace
    split at hplace
    · simp at hplace
    rename_i hnonempty
    obtain rfl : found = id := Except.ok.inj h
    refine ⟨fun hnil => hnonempty (List.isEmpty_iff.mpr hnil), ?_⟩
    split at hplace
    · rename_i place hfollow
      obtain rfl := Except.ok.inj hplace
      exact hfollow
    · simp at hplace
  · simp at h
  · simp at h

/-- What a path leads to is a node of the tree. -/
theorem node_of_stat {node : FileNode} (h : t.stat path = .ok node) :
    ∃ id, t.lookup path = .ok id ∧ t.node? id = some node := by
  rw [stat] at h
  split at h
  · rename_i id hid
    split at h
    · rename_i node' hnode
      obtain rfl := Except.ok.inj h
      exact ⟨id, hid, hnode⟩
    · cases h
  · cases h

/-- A path and a name are followed from where the path is followed from. -/
theorem origin_join (hpath : path ≠ []) (name : Bytes) :
    t.origin t.current (Path.join path name) = t.origin t.current path := by
  rw [origin, origin, Path.isAbsolute_join hpath]

/-- A slash at the end of a path makes no difference to where its names lead. -/
theorem leads_of_lookup (h : t.lookup path = .ok dir) :
    ∃ left, t.Leads linkLimit (t.origin t.current path) ((Path.names path).map Path.Step.ofName)
      left dir := by
  obtain ⟨-, hfollow⟩ := follow_of_lookup h
  obtain ⟨left, hleads⟩ := leads_of_follow hfollow
  rw [Path.steps] at hleads
  obtain ⟨between, middle, hnames, hlast⟩ := hleads.of_append
  -- a slash at the end adds one step, and it stays where it is
  have hstays : middle = dir := by
    split at hlast
    · cases hlast with
      | stay _ hdone => cases hdone; rfl
    · cases hlast; rfl
  exact ⟨between, hstays ▸ hnames⟩

/-- **A name below a path is looked up in the directory that the path leads to.** -/
theorem leads_join (hdir : t.lookup path = .ok dir)
    (hname : t.lookup (Path.join path name.bytes) = .ok id) :
    ∃ left, t.Leads linkLimit dir [.into name.bytes] left id := by
  obtain ⟨hpath, -⟩ := follow_of_lookup hdir
  obtain ⟨first, hfirst⟩ := leads_of_lookup hdir
  obtain ⟨-, hfollow⟩ := follow_of_lookup hname
  obtain ⟨left, hleads⟩ := leads_of_follow hfollow
  rw [origin_join hpath, Path.steps_join] at hleads
  obtain ⟨between, middle, hnames, hlast⟩ := hleads.of_append
  -- the names of the path lead to its directory here too
  obtain rfl := hnames.unique hfirst
  -- some links were used up on the way, and giving them back does no harm
  exact hlast.mono hnames.left_le

/-- **What a name leads to depends on its directory only**, as long as it leads somewhere. -/
theorem lookup_join_congr (hdir : t.lookup path = .ok dir) (hdir' : t.lookup path' = .ok dir)
    (hname : t.lookup (Path.join path name.bytes) = .ok id)
    (hname' : t.lookup (Path.join path' name.bytes) = .ok id') : id = id' := by
  obtain ⟨left, hleads⟩ := leads_join hdir hname
  obtain ⟨left', hleads'⟩ := leads_join hdir' hname'
  exact hleads.unique hleads'

/-! ## Trees with the same ways

  Two kinds of change are behind this: directories that are listed in another order, and a file
  with another content.  Both are seen by a walk or by a reader, and not by a look-up. -/

/-- Two trees in which the same ways lead to the same nodes: directories may list their entries in
    another order, and files may hold anything.  The last two clauses say that no directory and no
    link was added, so that what fails in one tree fails in the other. -/
structure SameWays (t t' : FileTree) : Prop where
  root : t'.root = t.root
  current : t'.current = t.current
  directory : ∀ {id parent : Nat} {entries : List (Name × Nat)},
    t.node? id = some (.directory parent entries) →
    ∃ entries', t'.node? id = some (.directory parent entries') ∧ entry? entries' = entry? entries
  link : ∀ {id : Nat} {target : Bytes},
    t.node? id = some (.link target) → t'.node? id = some (.link target)
  directory_back : ∀ {id parent : Nat} {entries' : List (Name × Nat)},
    t'.node? id = some (.directory parent entries') →
    ∃ entries, t.node? id = some (.directory parent entries)
  link_back : ∀ {id : Nat} {target : Bytes},
    t'.node? id = some (.link target) → t.node? id = some (.link target)

namespace SameWays

variable {t' : FileTree}

theorem origin_eq (h : SameWays t t') (dir : Nat) (path : Bytes) :
    t'.origin dir path = t.origin dir path := by
  rw [origin, origin, h.root]

/-- **Look-ups end alike.**  By induction on the steps. -/
theorem follow_eq (h : SameWays t t') (followLast : Bool) (links id : Nat) (steps : List Path.Step) :
    t'.follow followLast links id steps = t.follow followLast links id steps := by
  fun_induction follow t followLast links id steps with
  | case1 => rw [follow]
  | case2 links id rest parent entries hdir ih | case3 links id rest parent entries hdir ih =>
    obtain ⟨entries', hdir', -⟩ := h.directory hdir
    rw [follow, hdir']
    exact ih
  | case4 links id rest parent entries hdir name hlong =>
    obtain ⟨entries', hdir', -⟩ := h.directory hdir
    rw [follow, hdir']
    simp [hlong]
  | case5 links id rest parent entries hdir name hshort hentry hlast
  | case6 links id rest parent entries hdir name hshort hentry hlast =>
    obtain ⟨entries', hdir', hsame⟩ := h.directory hdir
    rw [follow, hdir']
    simp [hshort, hsame, hentry, hlast]
  | case7 links id rest parent entries hdir name hshort child hentry target hlink hlast
  | case8 id rest parent entries hdir name hshort child hentry target hlink hlast =>
    obtain ⟨entries', hdir', hsame⟩ := h.directory hdir
    rw [follow, hdir']
    simp [hshort, hsame, hentry, h.link hlink, hlast]
  | case9 id rest parent entries hdir name hshort child hentry target hlink hlast links hempty =>
    obtain ⟨entries', hdir', hsame⟩ := h.directory hdir
    rw [follow, hdir']
    simp [hshort, hsame, hentry, h.link hlink, hlast, hempty]
  | case10 id rest parent entries hdir name hshort child hentry target hlink hlast links hempty ih =>
    obtain ⟨entries', hdir', hsame⟩ := h.directory hdir
    rw [follow, hdir']
    simp [hshort, hsame, hentry, h.link hlink, hlast, hempty, h.origin_eq, ih]
  | case11 links id rest parent entries hdir name hshort child hentry hnolink ih =>
    obtain ⟨entries', hdir', hsame⟩ := h.directory hdir
    have hnolink' (target : Bytes) : t'.node? child ≠ some (.link target) := fun hlink =>
      hnolink target (h.link_back hlink)
    rw [follow, hdir']
    simp only [hshort, if_false, hsame, hentry]
    exact ih
  | case12 links id step rest hnodir =>
    rw [follow]
    split
    · rename_i parent entries' hdir'
      obtain ⟨entries, hdir⟩ := h.directory_back hdir'
      exact absurd hdir (hnodir parent entries)
    · rfl

theorem lookup_eq (h : SameWays t t') (path : Bytes) : t'.lookup path = t.lookup path := by
  rw [lookup, lookup, locate, locate, h.follow_eq, h.origin_eq, h.current]

end SameWays

/-! ## A walk, by the node that its path leads to

  These are the equations of the walk that proofs rewrite with. -/

theorem walk_of_file {content : Array UInt8} (h : t.stat path = .ok (.file content)) :
    t.walk path = .ok [path] := by
  rw [walk, h]

theorem walk_of_directory {parent : Nat} {entries : List (Name × Nat)}
    (h : t.stat path = .ok (.directory parent entries)) (hlisted : t.unlisted? path = none) :
    t.walk path = do
      let below ← entries.mapM fun entry => t.walk (Path.join path entry.1.bytes)
      return below.flatten := by
  rw [walk, h]
  simp only [hlisted]

/-- What is neither a file nor a directory is passed over. -/
theorem walk_of_other {node : FileNode} (h : t.stat path = .ok node)
    (hnofile : ∀ content, node ≠ .file content)
    (hnodir : ∀ parent entries, node ≠ .directory parent entries) : t.walk path = .ok [] := by
  fun_cases walk t path with
  | case1 error hstat => cases h.symm.trans hstat
  | case2 content hstat => exact absurd (Except.ok.inj (h.symm.trans hstat)) (hnofile content)
  | case3 parent entries hstat => exact absurd (Except.ok.inj (h.symm.trans hstat)) (hnodir _ _)
  | case4 parent entries hstat => exact absurd (Except.ok.inj (h.symm.trans hstat)) (hnodir _ _)
  | case5 => rfl

end FileTree

end RecordFeed
