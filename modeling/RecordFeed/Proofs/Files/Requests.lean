/-
  Asking for one file after another, while the files change.

  Between two requests anything may happen to the files below a root: they may be removed, replaced,
  shut or moved, and new ones may come.  So a run of requests is a list of file trees (`requests`),
  one for each request, and nothing ties one of them to the next.

  1. **Reference** (`tries`, `Serves`).  The paths that were found are paired with the trees, the
     first path with the first tree.  All else is said of these pairs: what is answered, what is
     left, which file was opened last.

  2. **Step and run** (`nextStream_of_cons`, `requests_of_pending`).  A request takes the first path
     off the list and tries it; requests go on so, by induction on the trees.

  3. **The first request** walks, and is then a request for the paths that were found
     (`serves_of_files`); after a walk that failed there are none (`requests_of_error`).
-/
import RecordFeed.FileStreams

namespace RecordFeed

/-! ## Reference

  What is said of requests refers to pairs of a path and a tree, and to their order.  The state
  of the factory does not occur in it. -/

/-- A path, and the files as they are when it is its turn.  Everything that a request does is
    decided by the two. -/
structure Try where
  path : Bytes
  tree : FileTree

namespace Try

/-- The path leads to a file that can be opened, in the tree of its turn. -/
def opens (tried : Try) : Bool := (OpenFile.ofPath tried.tree tried.path).isOk

/-- What opening the path comes to. -/
def answer (tried : Try) : Opening OpenFile :=
  match OpenFile.ofPath tried.tree tried.path with
  | .ok h => .stream h
  | .error error => .failed error

/-- What is logged of it. -/
def event (tried : Try) : Event := .log (.openedFile tried.path)

end Try

namespace FileStreams

/-- The paths that are tried: each in a tree of its own, as far as there are both.  Paths behind the
    last tree were not asked for, and trees behind the last path have nothing to open. -/
def tries (paths : List Bytes) (ts : List FileTree) : List Try := List.zipWith Try.mk paths ts

/-- The path that was opened last. -/
def latest? (tried : List Try) : Option Bytes := (tried.filter Try.opens).getLast?.map Try.path

/-- One request after another, each in the files as they are by then.  A tree stands for the moment
    of its request. -/
def requests : List FileTree → FileStreams → Reply FileStreams (List (Opening OpenFile))
  | [], f => { answer := [], next := f }
  | t :: later, f =>
    let first := f.nextStream t
    let rest := requests later first.next
    { answer := first.answer :: rest.answer, next := rest.next, events := first.events ++ rest.events }

/-- What requests in these trees come to, for a list of paths that was found in a walk. -/
structure Serves (root : Bytes) (found : List Bytes) (ts : List FileTree)
    (reply : Reply FileStreams (List (Opening OpenFile))) : Prop where
  /-- Each request tries the path that is next, and no other one; behind the last there is
      nothing. -/
  answer_eq : reply.answer = (tries found ts).map Try.answer ++
    List.replicate (ts.length - found.length) .exhausted
  /-- The paths that were not tried yet are left, in their order. -/
  pending_eq : reply.next.pending = some (found.drop ts.length)
  remaining_eq : reply.next.remaining = some (found.length - ts.length)
  /-- The path that was opened last, until a request has found that there are no more. -/
  currentPath_eq : reply.next.currentPath =
    if found.length < ts.length then none else latest? (tries found ts)
  /-- There was one walk, and each file was opened once at most. -/
  events_eq : reply.events = .log (.walked root found.length) ::
    ((tries found ts).filter Try.opens).map Try.event

/-! ## Step

  A request has four cases: the list of paths is known or not, and it is empty or not.  Where
  it is not known, the walk makes it known and the other cases apply. -/

variable {t : FileTree} {f : FileStreams} {path : Bytes} {paths rest : List Bytes}

/-- What a request leaves that tried a path. -/
def afterTry (f : FileStreams) (tried : Try) (rest : List Bytes) : FileStreams :=
  { f with
    pending := some rest
    currentPath := if tried.opens then some tried.path else f.currentPath }

/-- **A request** takes the first path off the list, whether it can be opened or not. -/
theorem nextStream_of_cons (h : f.pending = some (path :: rest)) :
    f.nextStream t =
      { answer := Try.answer ⟨path, t⟩
        next := f.afterTry ⟨path, t⟩ rest
        events := ([Try.mk path t].filter Try.opens).map Try.event } := by
  rw [nextStream, h]
  dsimp only
  rw [openFirst, Try.answer, afterTry]
  cases hopen : OpenFile.ofPath t path with
  | ok handle =>
    -- the file is opened: this is logged, and its path becomes the current one
    have hopens : Try.opens ⟨path, t⟩ = true := by rw [Try.opens, hopen]; rfl
    rw [List.filter_cons_of_pos hopens, if_pos hopens]
    rfl
  | error error =>
    -- the file cannot be opened: nothing is logged, and the current path stays
    have hshut : ¬ Try.opens ⟨path, t⟩ = true := by rw [Try.opens, hopen]; exact Bool.false_ne_true
    rw [List.filter_cons_of_neg hshut, if_neg hshut]
    rfl

/-- Without paths there is no stream, and no file that was opened last: the current path is
    forgotten. -/
theorem nextStream_of_nil (h : f.pending = some []) :
    f.nextStream t =
      { answer := .exhausted, next := { f with pending := some [], currentPath := none } } := by
  rw [nextStream, h]
  rfl

/-- The first request, after its walk, is a request for the paths that were found.  So the two cases
    of a request are one. -/
theorem nextStream_of_files (h : f.pending = none) (hfiles : t.files f.root = .ok paths) :
    f.nextStream t =
      (({ f with pending := some paths } : FileStreams).nextStream t).after
        [.log (.walked f.root paths.length)] := by
  rw [nextStream, h]
  dsimp only
  rw [hfiles]
  cases paths with
  | nil => rfl
  | cons path rest =>
    rw [nextStream]
    dsimp only
    rw [openFirst, openFirst]

/-- A walk that fails is answered as it failed, and leaves an empty list. -/
theorem nextStream_of_error {error : IoError} (h : f.pending = none)
    (hfiles : t.files f.root = .error error) :
    f.nextStream t = { answer := .failed error, next := { f with pending := some [] } } := by
  rw [nextStream, h]
  dsimp only
  rw [hfiles]

/-! ## Run

  The lists of the reference are cut to the shorter one of paths and trees.  This fits the
  recursion of requests: each of them takes one of both, until the paths are used up. -/

/-- A path counts as opened last when none behind it could be opened. -/
theorem latest?_cons (tried : Try) (more : List Try) :
    latest? (tried :: more) =
      (latest? more).or (if tried.opens then some tried.path else none) := by
  by_cases hopens : tried.opens = true
  · rw [latest?, latest?, List.filter_cons_of_pos hopens, List.getLast?_cons, if_pos hopens]
    cases (more.filter Try.opens).getLast? <;> rfl
  · rw [latest?, latest?, List.filter_cons_of_neg hopens, if_neg hopens, Option.or_none]

/-- **Requests for the paths of a list**, by induction on the trees.  Each request takes one path
    off the list, and this path is paired with the first tree. -/
theorem requests_of_pending (paths : List Bytes) (ts : List FileTree) (h : f.pending = some paths) :
    f.requests ts =
      { answer := (tries paths ts).map Try.answer ++
          List.replicate (ts.length - paths.length) .exhausted
        next :=
          { f with
            pending := some (paths.drop ts.length)
            currentPath :=
              if paths.length < ts.length then none
              else (latest? (tries paths ts)).or f.currentPath }
        events := ((tries paths ts).filter Try.opens).map Try.event } := by
  induction ts generalizing f paths with
  | nil =>
    obtain ⟨root, pending, currentPath⟩ := f
    obtain rfl : pending = some paths := h
    simp [requests, tries, latest?]
  | cons t later ih =>
    cases paths with
    | nil =>
      -- no path is left, and each further tree is answered that there are no more
      rw [requests, nextStream_of_nil h]
      dsimp only
      rw [ih [] rfl]
      simp [tries, latest?, List.replicate_succ]
    | cons path rest =>
      have hmore : tries (path :: rest) (t :: later) = ⟨path, t⟩ :: tries rest later := rfl
      -- a file opened later takes the place of this one, if there is one
      have hcurrent : (latest? (tries rest later)).or (f.afterTry ⟨path, t⟩ rest).currentPath =
          (latest? (⟨path, t⟩ :: tries rest later)).or f.currentPath := by
        rw [latest?_cons, Option.or_assoc, afterTry]
        split <;> rfl
      rw [requests, nextStream_of_cons h]
      dsimp only
      rw [ih rest rfl, hmore, hcurrent]
      simp only [List.length_cons, Nat.add_sub_add_right, Nat.add_lt_add_iff_right, List.map_cons,
        List.cons_append, List.drop_succ_cons, afterTry, ← List.map_append, ← List.filter_append,
        List.nil_append]

/-- **Requests after a walk that found some paths.** The walk is made in the first of the trees
    only. -/
theorem serves_of_files {root : Bytes} (later : List FileTree) (hfiles : t.files root = .ok paths) :
    Serves root paths (t :: later) (requests (t :: later) { root }) := by
  have hwalk : requests (t :: later) { root } =
      (requests (t :: later) { root, pending := some paths }).after
        [.log (.walked root paths.length)] := by
    rw [requests, requests, nextStream_of_files rfl hfiles]
    rfl
  have hrun := requests_of_pending paths (t :: later) (f := { root, pending := some paths }) rfl
  dsimp only at hrun
  rw [hwalk, hrun]
  constructor
  · rfl
  · rfl
  · simp [remaining]
  · simp
  · rfl

/-- **Requests after a walk that failed**: this is answered once, and then there are no files. -/
theorem requests_of_error {root : Bytes} {error : IoError} (later : List FileTree)
    (hfiles : t.files root = .error error) :
    requests (t :: later) { root } =
      { answer := .failed error :: List.replicate later.length .exhausted
        next := { root, pending := some [], currentPath := none } } := by
  rw [requests, nextStream_of_error rfl hfiles]
  dsimp only
  rw [requests_of_pending [] later rfl]
  simp [tries, latest?]

/-- **The list of paths is fixed by the first walk**, and each request takes the next path off it.
    This holds however the files change between the requests: a path that cannot be opened any more
    is answered as it fails and not tried again, and a file that has come since is not found.  The
    path of the file that was opened last stays until another one is opened, or there are no more.

    When the walk fails, this is answered once, and then there are no files. -/
theorem walk_fixes_paths (root : Bytes) (t : FileTree) (later : List FileTree) :
    let fresh : FileStreams := { root }
    fresh.remaining = none ∧ fresh.currentPath = none ∧
      match t.files root with
      | .ok found => Serves root found (t :: later) (fresh.requests (t :: later))
      | .error error => fresh.requests (t :: later) =
        { answer := .failed error :: List.replicate later.length .exhausted
          next := { root, pending := some [], currentPath := none } } := by
  refine ⟨rfl, rfl, ?_⟩
  cases hfiles : t.files root with
  | error error => exact requests_of_error later hfiles
  | ok found => exact serves_of_files later hfiles

end FileStreams

end RecordFeed
