/-
  The program on a real machine.

  What is below the path asked for is copied into a tree of files, the run is computed on the tree,
  and then everything that the run printed and logged is done, in its order.  When the machine
  refuses to print a message, the run is computed once more with that refusal: up to there both
  runs did the same, and from there on the second one says what to do.
-/
import RecordFeed.FileTree.Change
import RecordFeed.Printout

namespace RecordFeed.Program

/-! ## The files of the machine -/

/-- Why the machine refused. -/
def causeOf : IO.Error → IoError
  | .resourceExhausted _ 28 _ => .system .noSpace
  | .permissionDenied _ 13 _ => .system .accessDenied
  | error => .reported .other error.toString

/-- The tree with a link under a path, where the tree admits one. -/
def withLink (t : FileTree) (path target : Bytes) : FileTree := (t.placeLink? path target).getD t

/-- The tree with what a path leads to shut, because the machine refused to open it. -/
def withShut (t : FileTree) (path : Bytes) (error : IO.Error) : FileTree :=
  (t.obstruct? path (.shut (causeOf error))).getD t

/-- The tree with all that a path leads to.  `above` holds the directories that the path goes
    through: one that leads back into itself becomes a link to itself, and what leads nowhere a link
    to nothing. -/
partial def copied (above : List String) (t : FileTree) (path : String) : IO FileTree := do
  let place := Bytes.ofString path
  try
    let real ← IO.FS.realPath path
    match (← real.metadata).type with
    | .file =>
      match ← (IO.FS.readBinFile path).toBaseIO with
      | .ok content => return (t.placeFile? place content.data.toList).getD t
      | .error error => return withShut ((t.placeFile? place []).getD t) place error
    | .dir =>
      if above.contains real.toString then
        return withLink t place ((Path.names place).getLast?.getD [])
      let mut t := (t.placeDirectory? place).getD t
      match ← (real.readDir).toBaseIO with
      | .error error => return withShut t place error
      | .ok entries =>
        for entry in entries do
          let below := if path.endsWith "/" then path ++ entry.fileName
            else path ++ "/" ++ entry.fileName
          t ← copied (real.toString :: above) t below
        return t
    | _ => return withLink t place FileTree.specialPath
  catch _ => return withLink t place []

/-- The tree with all that a run can look at. -/
def surroundings (path : String) (o : Options) : IO FileTree := do
  let t ← copied [] .empty path
  match o.config.bind Text.utf8? with
  | some config => copied [] t config
  | none => return t

/-! ## Doing what a run did -/

/-- A message that the machine did not print. -/
structure Refusal where
  /-- its number among the messages -/
  message : Nat
  /-- the number of events before it -/
  done : Nat
  error : IoError

/-- Writes to the standard output, at once. -/
def put (bytes : Bytes) : IO Unit := do
  let out ← IO.getStdout
  out.write ⟨bytes.toArray⟩
  out.flush

/-- Does what the events of a run tell, and stops at the first message that cannot be printed. -/
def perform (v : Verbosity) (message done : Nat) : List Event → IO (Option Refusal)
  | [] => return none
  | .printed bytes :: rest => do
    match ← (put bytes).toBaseIO with
    | .ok () => perform v (message + 1) (done + 1) rest
    | .error error => return some { message, done, error := causeOf error }
  | .log entry :: rest => do
    if entry.shownAt v then (← IO.getStderr).putStrLn entry.line
    perform v message (done + 1) rest
  | _ :: rest => perform v message (done + 1) rest

/-- Prints what the options ask for, and answers the exit code. -/
def print (path : String) (o : Options) : IO UInt32 := do
  let v := Verbosity.asked (← IO.getEnv "RUST_LOG")
  let t ← surroundings path o
  let run := Printout.run t {} o
  match ← perform v 0 0 run.events with
  | none => return run.exitCode.toUInt32
  | some refusal =>
    let refuses n := if n = refusal.message then some refusal.error else none
    let run := Printout.run t ⟨refuses⟩ o
    let _ ← perform v 0 0 (run.events.drop refusal.done)
    return run.exitCode.toUInt32

end RecordFeed.Program

open RecordFeed in
def main (arguments : List String) : IO UInt32 := do
  match CommandLine.read (arguments.map Bytes.ofString) with
  | .error misuse =>
    (← IO.getStderr).putStrLn ("error: " ++ misuse.message)
    return 2
  | .ok .version =>
    (← IO.getStdout).putStr CommandLine.versionText
    return 0
  | .ok .help =>
    (← IO.getStdout).putStr CommandLine.helpText
    return 0
  | .ok (.print options) =>
    match Text.utf8? options.path with
    | some path => Program.print path options
    | none => return 2
