/-
  The command line: the path whose messages are printed, and settings that go before those of the
  settings file.

  Arguments are read from the first to the last, and the first one that decides something decides
  it: a question for the version or for help, or a misuse.  A value may stand in the argument of
  its option, after an equals sign, or be the next argument; then it must not look like an option.
  After `--` nothing is an option any more.
-/
import RecordFeed.Settings
import RecordFeed.Text.Utf8

namespace RecordFeed

/-- What a command line asks to be printed, and how. -/
structure Options where
  path : Bytes
  /-- the path of a settings file -/
  config : Option Bytes := none
  delimiter : Option String := none
  maxTokenSize : Option Nat := none
  multipart : Bool := false
deriving Repr, DecidableEq

/-- The settings with all that the options say about them.  The mode can only be asked for: an
    option that is not given does not take it back. -/
def Options.override (o : Options) (s : Settings) : Settings :=
  { s with
    delimiter := o.delimiter.getD s.delimiter
    maxTokenSize := o.maxTokenSize.getD s.maxTokenSize
    multipart := s.multipart || o.multipart }

namespace CommandLine

/-! ## Arguments

  An argument is classified by itself, before it is known whether a value is expected. -/

/-- The options that take a value. -/
inductive Valued where
  | config
  | delimiter
  | maxTokenSize
deriving Repr, DecidableEq

/-- The options that take none. -/
inductive Flag where
  | multipart
  | help
  | version
deriving Repr, DecidableEq

/-- The name without its dashes. -/
def Valued.name : Valued → String
  | .config => "config"
  | .delimiter => "delimiter"
  | .maxTokenSize => "max-token-size"

/-- The name without its dashes. -/
def Flag.name : Flag → String
  | .multipart => "multipart"
  | .help => "help"
  | .version => "version"

/-- A name has to be complete; a beginning of one is another name. -/
def Valued.named? (name : Bytes) : Option Valued :=
  [.config, .delimiter, .maxTokenSize].find? fun option => Bytes.ofString option.name == name

/-- As with the options that take a value, a name has to be complete. -/
def Flag.named? (name : Bytes) : Option Flag :=
  [.multipart, .help, .version].find? fun option => Bytes.ofString option.name == name

/-- What an argument is, as long as options are expected. -/
inductive Argument where
  /-- no option -/
  | bare (bytes : Bytes)
  /-- two dashes and a name, perhaps with an equals sign and a value -/
  | long (name : Bytes) (attached : Option Bytes)
  /-- one dash and letters -/
  | short (letters : Bytes)
  /-- two dashes alone: no options from here on -/
  | endOfOptions
deriving Repr, DecidableEq

/-- The byte that options begin with. -/
def dash : UInt8 := 0x2d

/-- The byte between the name of an option and its value. -/
def equalsSign : UInt8 := 0x3d

/-- The value behind the first equals sign.  A second equals sign belongs to the value. -/
def attached? (bytes : Bytes) : Option Bytes :=
  match bytes.dropWhile (· != equalsSign) with
  | [] => none
  | _ :: value => some value

/-- A dash alone is no option; it may well be the name of a file. -/
def Argument.ofBytes : Bytes → Argument
  | [] => .bare []
  | [b] => .bare [b]
  | b :: c :: rest =>
    if b != dash then .bare (b :: c :: rest)
    else if c != dash then .short (c :: rest)
    else if rest.isEmpty then .endOfOptions
    else .long (rest.takeWhile (· != equalsSign)) (attached? rest)

/-! ## Reading them

  The draft is what was said so far.  An argument adds to it or decides the answer. -/

/-- What is wrong with a command line. -/
inductive Misuse where
  | unknownOption (argument : Bytes)
  | missingValue (option : Valued)
  | unwantedValue (option : Flag)
  | repeated (name : String)
  | badValue (option : Valued) (value : Bytes)
  | emptyPath
  | secondPath (argument : Bytes)
  | missingPath
deriving Repr, DecidableEq

/-- What is told about the misuse; a text that is no UTF-8 is shown as well as it can be. -/
def Misuse.message : Misuse → String
  | .unknownOption argument => "unexpected argument '" ++ Text.lossy argument ++ "' found"
  | .missingValue option => "a value is required for '--" ++ option.name ++ "'"
  | .unwantedValue option => "no value is allowed for '--" ++ option.name ++ "'"
  | .repeated name => "the argument '--" ++ name ++ "' cannot be used multiple times"
  | .badValue option value =>
    "invalid value '" ++ Text.lossy value ++ "' for '--" ++ option.name ++ "'"
  | .emptyPath => "a value is required for '<PATH>'"
  | .secondPath argument => "unexpected argument '" ++ Text.lossy argument ++ "' found"
  | .missingPath => "the following required arguments were not provided: <PATH>"

/-- What a well-formed command line asks for. -/
inductive Request where
  | print (options : Options)
  | help
  | version
deriving Repr, DecidableEq

/-- What the arguments read so far have said. -/
structure Draft where
  path : Option Bytes := none
  config : Option Bytes := none
  delimiter : Option String := none
  maxTokenSize : Option Nat := none
  multipart : Bool := false

/-- The largest size that can be asked for. -/
def sizeLimit : Nat := 0xffffffffffffffff

/-- The byte is a decimal digit. -/
def isDigit (b : UInt8) : Bool := 0x30 ≤ b && b ≤ 0x39

/-- A size in decimal digits, perhaps after a plus sign. -/
def size? (bytes : Bytes) : Option Nat :=
  let digits := match bytes with
    | 0x2b :: rest => rest
    | _ => bytes
  if digits.isEmpty || !digits.all isDigit then none
  else
    let n := digits.foldl (fun n b => 10 * n + (b.toNat - 0x30)) 0
    if n ≤ sizeLimit then some n else none

example : size? (Bytes.ofString "+10") = some 10 := by decide
example : size? (Bytes.ofString "18446744073709551616") = none := by decide +kernel

namespace Draft

/-- Gives an option its value.  A value is given once. -/
def give (d : Draft) (value : Bytes) : Valued → Except Misuse Draft
  | .config =>
    if d.config.isSome then .error (.repeated Valued.config.name)
    else if value.isEmpty then .error (.badValue .config value)
    else .ok { d with config := some value }
  | .delimiter =>
    if d.delimiter.isSome then .error (.repeated Valued.delimiter.name)
    else
      match Text.utf8? value with
      | some text => .ok { d with delimiter := some text }
      | none => .error (.badValue .delimiter value)
  | .maxTokenSize =>
    if d.maxTokenSize.isSome then .error (.repeated Valued.maxTokenSize.name)
    else
      match size? value with
      | some size => .ok { d with maxTokenSize := some size }
      | none => .error (.badValue .maxTokenSize value)

/-- Takes an argument that is no option: the path, of which there is one. -/
def takePath (d : Draft) (bytes : Bytes) : Except Misuse Draft :=
  if d.path.isSome then .error (.secondPath bytes)
  else if bytes.isEmpty then .error .emptyPath
  else .ok { d with path := some bytes }

/-- Asks for the mode.  It is asked for once. -/
def takeMultipart (d : Draft) : Except Misuse Draft :=
  if d.multipart then .error (.repeated Flag.multipart.name)
  else .ok { d with multipart := true }

/-- What the arguments have asked for, when there are no more of them. -/
def request (d : Draft) : Except Misuse Request :=
  match d.path with
  | none => .error .missingPath
  | some path =>
    .ok (.print
      { path
        config := d.config
        delimiter := d.delimiter
        maxTokenSize := d.maxTokenSize
        multipart := d.multipart })

end Draft

/-- The option that a short argument begins with. -/
def shortFlag? : Bytes → Option Flag
  | 0x68 :: _ => some .help
  | 0x56 :: _ => some .version
  | _ => none

/-- Reads arguments of which none is an option. -/
def readPaths (d : Draft) : List Bytes → Except Misuse Request
  | [] => d.request
  | bytes :: rest => do readPaths (← d.takePath bytes) rest

/-- Reads arguments, given what those before them have said.  A question for help or for the version
    is answered where it stands, even before arguments that would be misuse. -/
def readFrom (d : Draft) : List Bytes → Except Misuse Request
  | [] => d.request
  | argument :: rest =>
    match Argument.ofBytes argument with
    | .endOfOptions => readPaths d rest
    | .bare bytes => do readFrom (← d.takePath bytes) rest
    | .short letters =>
      match shortFlag? letters with
      | some .help => .ok .help
      | some .version => .ok .version
      | _ => .error (.unknownOption argument)
    | .long name attached =>
      match Valued.named? name with
      | some option =>
        match attached with
        | some value => do readFrom (← d.give value option) rest
        | none =>
          match rest with
          | [] => .error (.missingValue option)
          | value :: rest =>
            match Argument.ofBytes value with
            | .bare value => do readFrom (← d.give value option) rest
            | _ => .error (.missingValue option)
      | none =>
        match Flag.named? name with
        | none => .error (.unknownOption argument)
        | some option =>
          if attached.isSome then .error (.unwantedValue option)
          else
            match option with
            | .multipart => do readFrom (← d.takeMultipart) rest
            | .help => .ok .help
            | .version => .ok .version

/-- What the arguments of a command line ask for. -/
def read (arguments : List Bytes) : Except Misuse Request := readFrom {} arguments

/-- The answer to a question for the version. -/
def versionText : String := "spark-ingest-cat 0.1.0\n"

/-- The answer to a question for help. -/
def helpText : String :=
  "Prints the messages of a file, or of all files below a directory\n\n" ++
  "Usage: spark-ingest-cat [OPTIONS] <PATH>\n\n" ++
  "Arguments:\n" ++
  "  <PATH>  The file or directory to read\n\n" ++
  "Options:\n" ++
  "      --config <CONFIG>                  A settings file in TOML, overridden by the options\n" ++
  "      --delimiter <DELIMITER>            What ends a record\n" ++
  "      --max-token-size <MAX_TOKEN_SIZE>  The most bytes buffered in search of a delimiter\n" ++
  "      --multipart                        Records up to a blank one make one message\n" ++
  "  -h, --help                             Print help\n" ++
  "  -V, --version                          Print version\n"

end CommandLine

end RecordFeed
