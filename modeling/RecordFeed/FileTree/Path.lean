/-
  Paths and the names they are made of.

  A path is a byte string in which slashes separate names.  To look something up a path is read as
  a list of steps: stay, go up, go into a name.  Repeated slashes separate once; a slash at the end
  counts as one more "stay", because staying somewhere demands that it is a directory.

  Two paths are compared name by name, so that all that is below a directory stays together; within
  a name the bytes decide.
-/
import RecordFeed.Bytes

namespace RecordFeed

namespace Path

/-- The byte that separates names. -/
def slash : UInt8 := 0x2f

/-- What stands between the slashes, empty pieces included.  The recursion is from the back, so that
    a byte joins the piece that it stands before. -/
def pieces : Bytes → List Bytes
  | [] => [[]]
  | b :: rest =>
    if b = slash then [] :: pieces rest
    else
      match pieces rest with
      | piece :: more => (b :: piece) :: more
      | [] => [[b]]

/-- The names in a path. -/
def names (path : Bytes) : List Bytes := (pieces path).filter fun piece => !piece.isEmpty

/-- A path that begins at the root and not at the current directory. -/
def isAbsolute (path : Bytes) : Bool := path.head? == some slash

/-- A path that demands a directory at its end. -/
def endsInSlash (path : Bytes) : Bool := path.getLast? == some slash

/-- One step of a look-up. -/
inductive Step where
  | stay
  | up
  | into (name : Bytes)
deriving Repr, DecidableEq

/-- The two names that do not lead into anything, and all others. -/
def Step.ofName (name : Bytes) : Step :=
  if name = Bytes.ofString "." then .stay
  else if name = Bytes.ofString ".." then .up
  else .into name

/-- The steps of a path. -/
def steps (path : Bytes) : List Step :=
  (names path).map Step.ofName ++ if endsInSlash path then [.stay] else []

/-- A path followed by a name.  A path that ends in a slash gets no second one. -/
def join (path name : Bytes) : Bytes :=
  if endsInSlash path then path ++ name else path ++ slash :: name

/-- A name below a path makes the path longer. -/
theorem length_lt_join {path name : Bytes} (h : name ≠ []) :
    path.length < (join path name).length := by
  have hpos := List.length_pos_iff.mpr h
  unfold join
  split
  · simp only [List.length_append]; omega
  · simp only [List.length_append, List.length_cons]; omega

/-- One path comes no later than another. -/
def le (p q : Bytes) : Bool := decide (names p ≤ names q)

example : le (Bytes.ofString "in/a/b") (Bytes.ofString "in/a.log") = true := by decide
example : le (Bytes.ofString "in/a.log") (Bytes.ofString "in/a/b") = false := by decide
example : names (Bytes.ofString "/a//b/") = [Bytes.ofString "a", Bytes.ofString "b"] := by decide

end Path

/-- The name of an entry of a directory: something that a path can go into.  The two names that move
    elsewhere are none, and a slash would make two of it. -/
structure Name where
  bytes : Bytes
  nonempty : bytes ≠ []
  plain : Path.slash ∉ bytes
  moves : Path.Step.ofName bytes = .into bytes

namespace Name

/-- The name with these bytes, if a name can have them. -/
def of? (bytes : Bytes) : Option Name :=
  if h : bytes ≠ [] ∧ Path.slash ∉ bytes ∧ Path.Step.ofName bytes = .into bytes then
    some ⟨bytes, h.1, h.2.1, h.2.2⟩
  else none

instance : DecidableEq Name := fun a b =>
  if h : a.bytes = b.bytes then .isTrue (by cases a; cases b; cases h; rfl)
  else .isFalse fun hab => h (hab ▸ rfl)

end Name

end RecordFeed
