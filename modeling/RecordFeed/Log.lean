/-
  The log of a feed.

  Each thing worth logging is a constructor with what has to be told about it.  Level, target,
  message and fields are functions of it, and a line is put together from those.
-/
import RecordFeed.Error
import RecordFeed.Text.Utf8

namespace RecordFeed

/-- How much a log line matters, the most important first. -/
inductive Level where
  | error
  | warn
  | info
  | debug
  | trace
deriving Repr, DecidableEq

namespace Level

/-- The word that a line begins with. -/
def name : Level → String
  | .error => "ERROR"
  | .warn => "WARN"
  | .info => "INFO"
  | .debug => "DEBUG"
  | .trace => "TRACE"

/-- How much detail a log has to admit for the line to be shown. -/
def detail : Level → Nat
  | .error => 1
  | .warn => 2
  | .info => 3
  | .debug => 4
  | .trace => 5

end Level

/-- How much detail of a log is shown. -/
structure Verbosity where
  detail : Nat
deriving Repr, DecidableEq

namespace Verbosity

/-- All that matters at least as much as a level. -/
def upTo (level : Level) : Verbosity := ⟨level.detail⟩

/-- Nothing is shown, not even errors. -/
def silent : Verbosity := ⟨0⟩

/-- A verbosity by its name, whatever the case of its letters. -/
def named? (name : String) : Option Verbosity :=
  match name.toLower with
  | "off" => some silent
  | "error" => some (upTo .error)
  | "warn" => some (upTo .warn)
  | "info" => some (upTo .info)
  | "debug" => some (upTo .debug)
  | "trace" => some (upTo .trace)
  | _ => none

/-- The verbosity that the environment asks for.  Nothing asked for means progress and what is
    worse; asked for without a name, only errors are shown. -/
def asked : Option String → Verbosity
  | none => upTo .info
  | some "" => upTo .error
  | some name => (named? name).getD (upTo .info)

end Verbosity

/-- A length of time given in milliseconds, in the largest unit that makes its whole part
    positive, without zeros at the end: `0ns`, `10ms`, `1.5s`. -/
def durationText (milliseconds : Nat) : String :=
  if milliseconds = 0 then "0ns"
  else if milliseconds < 1000 then toString milliseconds ++ "ms"
  else
    let fraction := milliseconds % 1000
    let whole := toString (milliseconds / 1000)
    if fraction = 0 then whole ++ "s"
    else
      let digits := (Nat.toDigits 10 (1000 + fraction)).drop 1
      whole ++ "." ++ String.ofList (digits.reverse.dropWhile (· == '0')).reverse ++ "s"

example : durationText 1500 = "1.5s" := by decide +kernel
example : durationText 1001 = "1.001s" := by decide +kernel

/-- A named value of a log line. -/
structure LogField where
  name : String
  value : String
  /-- the value is a text of its own and not the form of something else -/
  isText : Bool := false

/-- What a feed, the sources below it and the programs above it report. -/
inductive LogEntry where
  /-- A stream was opened and can be read. -/
  | connected (multipart : Bool) (limit : Nat)
  /-- The factory has no further streams. -/
  | exhausted
  /-- The factory could not open its next stream. -/
  | openFailed (error : IoError)
  /-- A handle was given back. -/
  | released
  /-- Reading failed, and the handle was given back. -/
  | readFailed (error : FeedError)
  /-- A stream was read to its end, with parts still to be delivered. -/
  | drained (pendingParts : Nat)
  /-- What was delivered did not arrive. -/
  | deliveryFailed (reason : String) (bufferedBytes : Nat)
  /-- The feed gives its handle back without waiting. -/
  | closing (milliseconds : Nat)
  /-- Messages that did not arrive will be delivered again. -/
  | requeued (messages : Nat)
  /-- The files below a root were listed. -/
  | walked (root : Bytes) (files : Nat)
  /-- A file was opened. -/
  | openedFile (path : Bytes)
  /-- A stream that could not be opened is passed over. -/
  | skipping (error : FeedError)
  /-- The rest of a stream is given up. -/
  | abandoning (error : FeedError)
  /-- Every stream has been read. -/
  | consumed (messages : Nat)
  /-- The run ends early. -/
  | failed (error : FeedError)
deriving Repr

namespace LogEntry

/-- Failures that a run survives are warnings in the feed, which cannot tell what the caller will
    do; the caller's own word about them is an error. -/
def level : LogEntry → Level
  | .skipping _ | .abandoning _ | .failed _ => .error
  | .openFailed _ | .readFailed _ => .warn
  | .exhausted | .consumed _ => .info
  | .connected _ _ | .drained _ | .deliveryFailed _ _ | .requeued _ | .walked _ _
  | .openedFile _ => .debug
  | .released | .closing _ => .trace

/-- The part of the program that speaks. -/
def target : LogEntry → String
  | .connected _ _ | .exhausted | .openFailed _ | .released | .readFailed _ | .drained _
  | .deliveryFailed _ _ | .closing _ => "spark_ingest::reader"
  | .requeued _ => "spark_ingest::preserver"
  | .walked _ _ | .openedFile _ => "spark_ingest::source::files"
  | .skipping _ | .abandoning _ | .consumed _ | .failed _ => "spark_ingest_cat"

/-- The words of the line, the same for every entry of a kind. -/
def message : LogEntry → String
  | .connected _ _ => "connected to next stream"
  | .exhausted => "stream factory exhausted, reader permanently closed"
  | .openFailed _ => "failed to open next stream"
  | .released => "released stream handle"
  | .readFailed _ => "stream read failed, handle released"
  | .drained _ => "stream drained"
  | .deliveryFailed _ _ => "delivery failed, record buffer retained"
  | .closing _ => "closing reader without waiting"
  | .requeued _ => "queueing messages for resend"
  | .walked _ _ => "walked file source root"
  | .openedFile _ => "opened file stream"
  | .skipping _ => "skipping stream that failed to open"
  | .abandoning _ => "abandoning stream"
  | .consumed _ => "all streams consumed"
  | .failed _ => "ingest failed"

/-- An error tells its text and its tag. -/
private def errorFields (error : FeedError) : List LogField :=
  [⟨"error", error.message, false⟩, ⟨"kind", error.label, true⟩]

/-- What has to be told about one entry in particular. -/
def fields : LogEntry → List LogField
  | .connected multipart limit =>
    [⟨"multipart", if multipart then "true" else "false", false⟩,
      ⟨"max_token_size", toString limit, false⟩]
  | .exhausted | .released => []
  | .openFailed error => [⟨"error", error.message, false⟩]
  | .readFailed error | .abandoning error | .failed error => errorFields error
  | .drained pendingParts => [⟨"pending_parts", toString pendingParts, false⟩]
  | .deliveryFailed reason bufferedBytes =>
    [⟨"error", reason, false⟩, ⟨"buffered_bytes", toString bufferedBytes, false⟩]
  | .closing milliseconds => [⟨"timeout", durationText milliseconds, false⟩]
  | .requeued messages | .consumed messages => [⟨"messages", toString messages, false⟩]
  | .walked root files =>
    [⟨"root", Text.lossy root, false⟩, ⟨"files", toString files, false⟩]
  | .openedFile path => [⟨"path", Text.lossy path, false⟩]
  | .skipping error => [⟨"error", error.message, false⟩]

/-- Message and fields, each field after a space.  `quoting` puts texts between quotes. -/
private def told (quoting : Bool) (entry : LogEntry) : String :=
  entry.fields.foldl
    (fun line field =>
      let value := if quoting && field.isText then "\"" ++ field.value ++ "\"" else field.value
      line ++ " " ++ field.name ++ "=" ++ value)
    entry.message

/-- The entry without its target. -/
def summary (entry : LogEntry) : String :=
  entry.level.name ++ " " ++ entry.told false

/-- The entry as a line of the log. -/
def line (entry : LogEntry) : String :=
  entry.level.name ++ " " ++ entry.target ++ ": " ++ entry.told true

/-- The entry is shown at a verbosity. -/
def shownAt (v : Verbosity) (entry : LogEntry) : Bool := decide (entry.level.detail ≤ v.detail)

example : (LogEntry.failed (.io .notText)).line =
    "ERROR spark_ingest_cat: ingest failed error=stream did not contain valid UTF-8 kind=\"ingest.io\"" := by
  decide +kernel

end LogEntry

end RecordFeed
