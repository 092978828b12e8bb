/-
  Failures of input and output.

  A failure is a cause, and what a log shows of it is computed from the cause: its `kind`, on which
  callers branch, and its `message`.  A fault that the operating system reports has a number and a
  fixed description; a failure that another program reports has a kind and, perhaps, a text.
-/

namespace RecordFeed

/-- The kinds of input and output failure on which a caller may branch. -/
inductive IoKind where
  | notFound
  | permissionDenied
  | connectionReset
  | brokenPipe
  | unexpectedEof
  | timedOut
  | interrupted
  | wouldBlock
  | invalidData
  | invalidInput
  | notADirectory
  | isADirectory
  | invalidFilename
  | filesystemLoop
  | storageFull
  | other
deriving Repr, DecidableEq

/-- What is said of a failure of which nothing but the kind is known. -/
def IoKind.description : IoKind → String
  | .notFound => "entity not found"
  | .permissionDenied => "permission denied"
  | .connectionReset => "connection reset"
  | .brokenPipe => "broken pipe"
  | .unexpectedEof => "unexpected end of file"
  | .timedOut => "timed out"
  | .interrupted => "operation interrupted"
  | .wouldBlock => "operation would block"
  | .invalidData => "invalid data"
  | .invalidInput => "invalid input parameter"
  | .notADirectory => "not a directory"
  | .isADirectory => "is a directory"
  | .invalidFilename => "invalid filename"
  | .filesystemLoop => "filesystem loop or indirection limit (e.g. symlink loop)"
  | .storageFull => "no storage space"
  | .other => "other error"

/-- The faults of the operating system that reading a file tree and writing output can meet. -/
inductive SystemFault where
  | noSuchEntry
  | accessDenied
  | notDirectory
  | isDirectory
  | noSpace
  | nameTooLong
  | tooManyLinks
deriving Repr, DecidableEq

namespace SystemFault

/-- The number by which the operating system reports the fault. -/
def number : SystemFault → Nat
  | .noSuchEntry => 2
  | .accessDenied => 13
  | .notDirectory => 20
  | .isDirectory => 21
  | .noSpace => 28
  | .nameTooLong => 36
  | .tooManyLinks => 40

/-- The operating system's description of the fault. -/
def description : SystemFault → String
  | .noSuchEntry => "No such file or directory"
  | .accessDenied => "Permission denied"
  | .notDirectory => "Not a directory"
  | .isDirectory => "Is a directory"
  | .noSpace => "No space left on device"
  | .nameTooLong => "File name too long"
  | .tooManyLinks => "Too many levels of symbolic links"

/-- The kind under which callers see the fault. -/
def kind : SystemFault → IoKind
  | .noSuchEntry => .notFound
  | .accessDenied => .permissionDenied
  | .notDirectory => .notADirectory
  | .isDirectory => .isADirectory
  | .noSpace => .storageFull
  | .nameTooLong => .invalidFilename
  | .tooManyLinks => .filesystemLoop

end SystemFault

/-- Why an input or output operation failed. -/
inductive IoError where
  /-- Nothing is known but the kind. -/
  | bare (kind : IoKind)
  /-- The failing party gave a text of its own. -/
  | reported (kind : IoKind) (text : String)
  /-- The operating system refused. -/
  | system (fault : SystemFault)
  /-- A path with a NUL byte in it cannot be handed to the operating system. -/
  | nulInPath
  /-- A file that has to be text is no UTF-8. -/
  | notText
deriving Repr, DecidableEq

namespace IoError

def kind : IoError → IoKind
  | .bare kind => kind
  | .reported kind _ => kind
  | .system fault => fault.kind
  | .nulInPath => .invalidInput
  | .notText => .invalidData

/-- The text that logs and callers show. -/
def message : IoError → String
  | .bare kind => kind.description
  | .reported _ text => text
  | .system fault => fault.description ++ " (os error " ++ toString fault.number ++ ")"
  | .nulInPath => "file name contained an unexpected NUL byte"
  | .notText => "stream did not contain valid UTF-8"

example : (IoError.system .noSuchEntry).message = "No such file or directory (os error 2)" := by
  decide +kernel

end IoError

end RecordFeed
