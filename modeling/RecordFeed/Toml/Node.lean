/-
  A TOML document while it is being read.

  Whether a key may still be added to a table depends on how the table came to be (`Origin`):

  * a table with a header of its own is complete in what its section says;
  * a table that only a longer header mentioned may still get its header;
  * a table that a dotted key made may be extended by dotted keys only.

  A value is closed, an inline table included.  The tables of an array of tables are reached
  through the latest of them.  What is read last stands first, so that adding is cheap, and only the
  values that come out in the end stand in document order.

  Every rule is a case of one function, `updateAt`, which walks down a path of keys, makes the
  tables that are missing, and hands the table at the end to an update.
-/
import RecordFeed.Toml.Value

namespace RecordFeed.Toml

/-- How a table came to be. -/
inductive Origin where
  | header
  /-- mentioned on the way to another table -/
  | passing
  | dotted
deriving Repr, DecidableEq

/-- What stands under a key while the document is being read. -/
inductive Node where
  | value (value : Value)
  | table (origin : Origin) (entries : List (String × Node))
  /-- an array of tables, of which only the latest is open -/
  | tables (latest : List (String × Node)) (earlier : List (List (String × Node)))

/-- Keys with what stands under them, the latest first. -/
abbrev Entries := List (String × Node)

namespace Entries

/-- What stands under a key, if it is there. -/
def find? (entries : Entries) (key : String) : Option Node :=
  (List.find? (fun entry => entry.1 == key) entries).map Prod.snd

/-- Puts a node under a key: in its place if the key is there, else as the latest. -/
def put (entries : Entries) (key : String) (node : Node) : Entries :=
  if entries.any fun entry => entry.1 == key then
    entries.map fun entry => if entry.1 == key then (key, node) else entry
  else (key, node) :: entries

/-- Takes a key away. -/
def erase (entries : Entries) (key : String) : Entries :=
  entries.filter fun entry => entry.1 != key

/-- Changes the table at the end of a path.  `viaDots` says that a dotted key leads there and not a
    header: it makes dotted tables, and passes through no table that has a header. -/
def updateAt (viaDots : Bool) (update : Origin → Entries → Option Entries) :
    List String → Origin → Entries → Option Entries
  | [], origin, entries => update origin entries
  | key :: path, _, entries =>
    match entries.find? key with
    | none =>
      let origin := if viaDots then Origin.dotted else .passing
      (updateAt viaDots update path origin []).map fun below =>
        entries.put key (.table origin below)
    | some (.table origin below) =>
      if viaDots && origin == .header then none
      else
        (updateAt viaDots update path origin below).map fun below =>
          entries.put key (.table origin below)
    | some (.tables latest earlier) =>
      (updateAt viaDots update path .header latest).map fun latest =>
        entries.put key (.tables latest earlier)
    | some (.value _) => none

/-- Adds a value under a key that is new. -/
def addNew (key : String) (value : Value) (entries : Entries) : Option Entries :=
  if (entries.find? key).isSome then none else some ((key, .value value) :: entries)

/-- Adds a value under a dotted key.  Dots lead into tables that dots have made. -/
def addValue (path : List String) (key : String) (value : Value) (origin : Origin)
    (entries : Entries) : Option Entries :=
  if path.isEmpty then addNew key value entries
  else
    updateAt true
      (fun reached below => if reached = .dotted then addNew key value below else none)
      path origin entries

/-- Gives a table its header.  A table mentioned in passing keeps what it holds and becomes the
    latest of the table above it. -/
def openTable (key : String) (entries : Entries) : Option Entries :=
  match entries.find? key with
  | none => some ((key, .table .header []) :: entries)
  | some (.table .passing below) => some ((key, .table .header below) :: entries.erase key)
  | some _ => none

/-- Begins a further table of an array of tables. -/
def openElement (key : String) (entries : Entries) : Option Entries :=
  match entries.find? key with
  | none => some ((key, .tables [] []) :: entries)
  | some (.tables latest earlier) => some (entries.put key (.tables [] (latest :: earlier)))
  | some _ => none

end Entries

mutual

/-- The value that a node has become. -/
def Node.toValue : Node → Value
  | .value value => value
  | .table _ entries => .table (Entries.valuesBefore entries [])
  | .tables latest earlier =>
    .array (Entries.tablesBefore earlier [.table (Entries.valuesBefore latest [])])

/-- The values under the keys, in document order, and later ones behind them. -/
def Entries.valuesBefore :
    List (String × Node) → List (String × Value) → List (String × Value)
  | [], later => later
  | (key, node) :: entries, later => Entries.valuesBefore entries ((key, node.toValue) :: later)

/-- The tables of an array of tables, in document order, and later ones behind them. -/
def Entries.tablesBefore : List (List (String × Node)) → List Value → List Value
  | [], later => later
  | entries :: earlier, later =>
    Entries.tablesBefore earlier (.table (Entries.valuesBefore entries []) :: later)

end

/-- The values under the keys, in document order. -/
def Entries.toValues (entries : Entries) : List (String × Value) :=
  Entries.valuesBefore entries []

end RecordFeed.Toml
