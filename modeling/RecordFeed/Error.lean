/-
  Everything that can go wrong with a feed.

  A caller that drives a feed has one question about an error: is it worth connecting again?
  `isRecoverable` answers it.  `message` is the text shown, `label` the stable tag of the log.
-/
import RecordFeed.Error.Io
import RecordFeed.Settings.Fault

namespace RecordFeed

/-- The causes of failure, from the caller's side: two that belong to the life of a feed, two that
    end one stream, two about its settings, and whatever the surroundings refuse. -/
inductive FeedError where
  /-- No stream is connected, or the connected one has been read to its end. -/
  | notConnected
  /-- There are no further streams, and there never will be. -/
  | closed
  /-- No delimiter was found in a full window. -/
  | tokenTooLarge (limit : Nat)
  /-- A split policy cut outside the window it was shown. -/
  | splitOverrun (advance window : Nat)
  /-- The settings do not fit together. -/
  | invalidSettings (fault : SettingsFault)
  /-- The settings could not be read from their document. -/
  | unreadableSettings (fault : DocumentFault)
  /-- Input or output failed. -/
  | io (error : IoError)
deriving Repr

namespace FeedError

/-- Connecting again is worth trying: a further stream may be waiting.  What ends one stream leaves
    the others; that there are no more, or that the settings are no good, stays so however often one
    asks. -/
def isRecoverable : FeedError → Bool
  | .notConnected | .tokenTooLarge _ | .splitOverrun _ _ | .io _ => true
  | .closed | .invalidSettings _ | .unreadableSettings _ => false

/-- The tag under which logs file the error. -/
def label : FeedError → String
  | .notConnected => "ingest.not_connected"
  | .closed => "ingest.closed"
  | .tokenTooLarge _ => "ingest.token_too_large"
  | .splitOverrun _ _ => "ingest.split_overrun"
  | .invalidSettings _ => "ingest.invalid_config"
  | .unreadableSettings _ => "ingest.config_parse"
  | .io _ => "ingest.io"

/-- The text shown. -/
def message : FeedError → String
  | .notConnected => "reader is not connected"
  | .closed => "reader is permanently closed: no further streams"
  | .tokenTooLarge limit =>
    "token exceeds the maximum buffered size of " ++ toString limit ++ " bytes"
  | .splitOverrun advance window =>
    "split policy overran its window: advance " ++ toString advance ++ " over " ++
      toString window ++ " buffered bytes"
  | .invalidSettings fault =>
    "invalid configuration for `" ++ fault.field ++ "`: " ++ fault.reason
  | .unreadableSettings _ => "failed to parse configuration"
  | .io error => error.message

end FeedError

end RecordFeed
