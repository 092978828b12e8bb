/-
  Settings from a file and from the command line.

  A command may name a settings file, and its options go before what the file says.

  1. **Reference** (`Options.Writes`, `Options.Merges`).  Of each field the merged settings have
     what the option says, or else what the file says, or else the default.

  2. **Runs** (`Printout.Honours`).  A run honours settings if it is refused exactly for what the
     validation says of them, and otherwise runs on them.  Nothing that happens later can be
     mistaken for a refusal: once a feed is made, a run fails only because a message is refused
     (`io_of_printAll_error`).

  3. **Two checks** (`Writes.exists_own`).  The settings of the file are validated when they are
     read, before any option is looked at, and the merged ones when the feed is made.  A file that
     is valid by itself passes the first check, and then the second one alone decides.

  A file that is not valid by itself is refused, even where the options replace what is wrong with
  it.
-/
import RecordFeed.Proofs.Printing.Loop
import RecordFeed.Proofs.Settings.Reading

namespace RecordFeed

open Settings (Gives Describes entryFault? writtenSize)
open Toml (Value Distinct)

variable {t : FileTree}

/-! ## Reading a whole file

  The settings file is a file like any other one.  It is read to its end, and its text is that
  of its bytes. -/

/-- The bytes of a text are read as the text. -/
theorem Text.utf8?_ofString (text : String) : Text.utf8? (Bytes.ofString text) = some text := by
  unfold Text.utf8? Bytes.ofString String.fromUTF8?
  exact dif_pos text.isValidUTF8

namespace FileTree

/-- Reading all of a file gives what it delivers. -/
theorem drain_of_delivers {h : OpenFile} {bytes : Bytes} (hdelivers : Delivers t h bytes .over) :
    t.drain h = .ok bytes := by
  have hroom : 0 < wholeFileRoom := by decide
  fun_induction drain t h generalizing bytes with
  | case1 h piece next hread ih =>
    obtain ⟨hpiece, hlater, -, -, -⟩ := hdelivers
    obtain ⟨more, rfl⟩ := hpiece hroom hread
    have hmore := hlater hroom hread
    rw [List.drop_left] at hmore
    rw [ih hmore]
    rfl
  | case2 h next hread =>
    obtain ⟨-, -, -, hover, -⟩ := hdelivers
    obtain ⟨rfl, -⟩ := hover hroom hread
    rfl
  | case3 h next hread ih =>
    obtain ⟨-, -, hagain, -, -⟩ := hdelivers
    exact ih (hagain hroom hread)
  | case4 h error next hread =>
    obtain ⟨-, -, -, -, hbroken⟩ := hdelivers
    obtain ⟨-, hending⟩ := hbroken hroom hread
    cases hending

/-- A file that can be read to its end has the text that its bytes are. -/
theorem text_of_open {path : Bytes} {h : OpenFile} {text : String}
    (hopen : OpenFile.ofPath t path = .ok h) (hover : h.ending t = .over)
    (hrest : h.rest t = Bytes.ofString text) : t.text path = .ok text := by
  have hdelivers := OpenFile.delivers t h
  rw [hover, hrest] at hdelivers
  rw [FileTree.text, content, hopen]
  dsimp only
  rw [drain_of_delivers hdelivers]
  dsimp only
  rw [Text.utf8?_ofString]

end FileTree

/-! ## Reference

  The reference takes each field by itself.  Whether the options are looked at before the file
  or after it cannot be said in it. -/

namespace Options

/-- What the settings file of a command says: the entries of its document, if none of them is at
    fault.  Without a file there are none. -/
inductive Writes (t : FileTree) (o : Options) : List (String × Value) → Prop where
  | nothing (hconfig : o.config = none) : Writes t o []
  | document {path : Bytes} {text : String} {entries : List (String × Value)}
      (hconfig : o.config = some path) (htext : t.text path = .ok text)
      (hdocument : Toml.document? text = some entries)
      (hfaultless : ∀ entry ∈ entries, entryFault? entry = none) : Writes t o entries

/-- The value of a field: what the option says, or, without one, what the entries give. -/
def Chosen {α : Type} (option : Option α) (entries : List (String × Value)) (key : String)
    (written : α → Value) (default chosen : α) : Prop :=
  option = some chosen ∨ option = none ∧ Gives entries key written default chosen

/-- The settings that the options and the entries of a file come to.  Nothing is said here of where
    the values are looked up first, or whether they are valid. -/
structure Merges (o : Options) (entries : List (String × Value)) (merged : Settings) : Prop where
  delimiter : Chosen o.delimiter entries "delimiter" Value.string ({} : Settings).delimiter
    merged.delimiter
  maxTokenSize : Chosen o.maxTokenSize entries "max_token_size" writtenSize
    ({} : Settings).maxTokenSize merged.maxTokenSize
  /-- The option can only ask for the mode. -/
  multipart : Chosen (if o.multipart then some true else none) entries "multipart" Value.boolean
    ({} : Settings).multipart merged.multipart
  /-- There is no option. -/
  segmentCapacity : Gives entries "segment_capacity" writtenSize ({} : Settings).segmentCapacity
    merged.segmentCapacity

section Chosen

variable {α : Type} {option : Option α} {entries : List (String × Value)} {key : String}
  {written : α → Value} {default a b : α}

/-- An option goes before a value that the entries give. -/
theorem chosen_getD (h : Gives entries key written default a) (option : Option α) :
    Chosen option entries key written default (option.getD a) := by
  cases option with
  | some chosen => exact .inl rfl
  | none => exact .inr ⟨rfl, h⟩

/-- There is one chosen value: the option leaves no choice, and without it the entries do not. -/
theorem Chosen.unique (hdistinct : Distinct entries)
    (hwritten : ∀ x y : α, written x = written y → x = y)
    (ha : Chosen option entries key written default a)
    (hb : Chosen option entries key written default b) : a = b := by
  rcases ha with rfl | ⟨rfl, ha⟩
  · rcases hb with hb | ⟨hb, -⟩
    · exact Option.some.inj hb
    · cases hb
  · rcases hb with hb | ⟨-, hb⟩
    · cases hb
    · exact ha.unique hdistinct hwritten hb

end Chosen

variable {o : Options} {entries : List (String × Value)} {own merged merged' : Settings}

/-- The program merges as the reference says. -/
theorem merges_override (o : Options) (h : Describes entries {} own) :
    o.Merges entries (o.override own) where
  delimiter := chosen_getD h.delimiter o.delimiter
  maxTokenSize := chosen_getD h.maxTokenSize o.maxTokenSize
  multipart := by
    have hchosen := chosen_getD h.multipart (if o.multipart then some true else none)
    have hmode : (if o.multipart then some true else none).getD own.multipart =
        (o.override own).multipart := by
      rw [override]
      cases o.multipart <;> simp
    rwa [hmode] at hchosen
  segmentCapacity := h.segmentCapacity

/-- So there is one way to merge.  Field by field. -/
theorem Merges.unique (hdistinct : Distinct entries) (h : o.Merges entries merged)
    (h' : o.Merges entries merged') : merged = merged' := by
  have hdelimiter := h.delimiter.unique hdistinct (fun _ _ h => Value.string.inj h) h'.delimiter
  have hlimit := h.maxTokenSize.unique hdistinct Settings.writtenSize_injective h'.maxTokenSize
  have hmode := h.multipart.unique hdistinct (fun _ _ h => Value.boolean.inj h) h'.multipart
  have hcapacity :=
    h.segmentCapacity.unique hdistinct Settings.writtenSize_injective h'.segmentCapacity
  cases merged
  cases merged'
  rw [Settings.mk.injEq]
  exact ⟨hdelimiter, hlimit, hmode, hcapacity⟩

/-! ## The first check

  The file is read on its own, and what it says is validated without the options.  This is
  where a run can be refused although the merged settings fit together. -/

/-- The keys of a file are distinct, since it is a document. -/
theorem Writes.distinct (h : o.Writes t entries) : Distinct entries := by
  cases h with
  | nothing hconfig => exact Toml.distinct_nil
  | document hconfig htext hdocument hfaultless => exact Toml.document?_distinct hdocument

/-- **The file has settings of its own**, and they are validated before the options are looked at.
    Without a file these are the defaults, which are valid. -/
theorem Writes.exists_own (h : o.Writes t entries) :
    ∃ own, Describes entries {} own ∧
      o.settings t = match own.validate with
        | .error fault => .error (.invalidSettings fault)
        | .ok () => .ok (o.override own) := by
  cases h with
  | nothing hconfig =>
    refine ⟨{}, Settings.describes_nil, ?_⟩
    rw [Options.settings, hconfig]
    rfl
  | document hconfig htext hdocument hfaultless =>
    have hreads := Settings.ofEntries_reads entries
    cases hentries : Settings.ofEntries entries with
    | error fault =>
      rw [hentries] at hreads
      cases hreads with
      | refused split _ faulty =>
        have hnone := hfaultless _ (split ▸ List.mem_append_right _ List.mem_cons_self)
        -- no entry is at fault, so the reading was not refused for one
        cases hnone.symm.trans faulty
    | ok own =>
      rw [hentries] at hreads
      cases hreads with
      | read _ described =>
        refine ⟨own, described, ?_⟩
        rw [Options.settings, hconfig]
        simp only [htext, Settings.ofDocument, Settings.read, hdocument, hentries]
        cases own.validate <;> rfl

end Options

/-! ## Runs on settings

  To run on settings means that a feed is made on them, and that all else follows from its
  streams.  It is told apart from a refusal by its error: no stream fails with an error about
  settings. -/

/-- The outer loop fails only because a message is refused. -/
theorem Driver.io_of_printAll_error {out : Outlet} {multipart : Bool} {r : Redelivery FileFeed}
    (hr : AtRest r) (hidle : r.inner.link = .idle) (count : Nat) {error : FeedError}
    (h : (printAll t out multipart r hr count).answer = .error error) :
    ∃ cause, error = .io cause := by
  obtain ⟨d, ⟨n, hnext, -⟩, hends⟩ := comes_printAll t out multipart hr count
  have horderly : Orderly t out d :=
    hnext ▸ orderly_go (.connecting hr.queue hr.pending hidle) n
  have hplace := hends.place
  rw [h] at hplace
  obtain ⟨cause, -, rfl⟩ := horderly.refusal_of_finished hplace
  exact ⟨cause, rfl⟩

namespace Printout

/-- The run has begun on these settings: a feed of the files below the path is made on them, and all
    messages are printed in their mode, up to the first one that is refused. -/
def RunsOn (t : FileTree) (out : Outlet) (path : Bytes) (settings : Settings) (p : Printout) :
    Prop :=
  ∃ (feed : FileFeed) (hmake : Feed.make { root := path } id settings = .ok feed),
    p =
      let reply := printAll t out settings.multipart { inner := feed } (.of_make hmake) 0
      match reply.answer with
      | .error error => failed error reply.events
      | .ok count =>
        { result := .ok count
          events := reply.events ++ (reply.next.waitForClose t closingTime).events ++
            [.log (.consumed count)] }

/-- The run is what these settings ask for. -/
structure Honours (t : FileTree) (out : Outlet) (path : Bytes) (settings : Settings) (p : Printout) :
    Prop where
  refused_iff : ∀ fault,
    p.result = .error (.invalidSettings fault) ↔ settings.validate = .error fault
  /-- Nothing is done before a refusal. -/
  refused : ∀ fault, p.result = .error (.invalidSettings fault) →
    p = failed (.invalidSettings fault) []
  runs : settings.validate = .ok () → RunsOn t out path settings p

variable {o : Options} {out : Outlet} {settings : Settings}

/-- A run that has begun is not refused for its settings any more. -/
theorem RunsOn.not_refused {path : Bytes} {p : Printout} (h : RunsOn t out path settings p)
    (fault : SettingsFault) : p.result ≠ .error (.invalidSettings fault) := by
  obtain ⟨feed, hmake, rfl⟩ := h
  dsimp only
  split
  · rename_i error hanswer
    obtain ⟨cause, rfl⟩ := Driver.io_of_printAll_error _ (Feed.link_of_make hmake) 0 hanswer
    simp [failed]
  · simp

/-- The second check refuses settings for what the validation says.  The feed is not made, so
    nothing is opened and nothing printed. -/
theorem run_of_invalid (hsettings : o.settings t = .ok settings) {fault : SettingsFault}
    (hbroken : settings.validate = .error fault) :
    run t out o = failed (.invalidSettings fault) [] := by
  have hmake : (Feed.make { root := o.path } id settings : Except FeedError FileFeed) =
      .error (.invalidSettings fault) := by rw [Feed.make, hbroken]
  rw [run, hsettings]
  dsimp only
  split
  · rename_i error hrefused
    obtain rfl := Except.error.inj (hrefused.symm.trans hmake)
    rfl
  · rename_i feed hmade
    cases hmade.symm.trans hmake

/-- A run honours the settings that the first check lets pass.  The two checks that are left are the
    one that makes the feed and the one that the reference asks for, and they are the same. -/
theorem honours_of_settings (h : o.settings t = .ok settings) (out : Outlet) :
    Honours t out o.path settings (run t out o) := by
  have hruns (hvalid : settings.validate = .ok ()) : RunsOn t out o.path settings (run t out o) :=
    run_of_accepted out (Options.accepted_iff.mpr ⟨h, hvalid⟩)
  have hiff (fault : SettingsFault) :
      (run t out o).result = .error (.invalidSettings fault) ↔ settings.validate = .error fault := by
    constructor
    · intro hrefused
      -- a run on valid settings is never refused for them
      cases hvalidate : settings.validate with
      | ok => exact absurd hrefused ((hruns hvalidate).not_refused fault)
      | error fault' =>
        rw [run_of_invalid h hvalidate] at hrefused
        exact congrArg Except.error (FeedError.invalidSettings.inj (Except.error.inj hrefused))
    · intro hbroken
      rw [run_of_invalid h hbroken]
      rfl
  exact ⟨hiff, fun fault hrefused => run_of_invalid h ((hiff fault).mp hrefused), hruns⟩

variable {entries : List (String × Value)}

/-- **Options go before the settings file**, as long as the file is valid by itself.  The entries
    of the file describe settings of its own, and together with the options they come to the
    merged ones, both in one way only.  If the settings of the file are valid, the run honours
    the merged ones: it is refused exactly for what the validation says of them, and otherwise
    runs on them.  If they are not, the run is refused for their fault, whatever the options say. -/
theorem run_honours_merged (h : o.Writes t entries) (out : Outlet) :
    ∃ own merged, (∀ s, Describes entries {} s ↔ s = own) ∧ (∀ s, o.Merges entries s ↔ s = merged) ∧
      (own.validate = .ok () → Honours t out o.path merged (run t out o)) ∧
      ∀ fault, own.validate = .error fault → run t out o = failed (.invalidSettings fault) [] := by
  obtain ⟨own, hown, hsettings⟩ := h.exists_own
  have hmerged := o.merges_override hown
  refine ⟨own, o.override own, fun s => ?_, fun s => ?_, fun hvalid => ?_, fun fault hbroken => ?_⟩
  · exact ⟨fun hs => hs.unique h.distinct hown, fun hs => hs ▸ hown⟩
  · exact ⟨fun hs => hs.unique h.distinct hmerged, fun hs => hs ▸ hmerged⟩
  · rw [hvalid] at hsettings
    exact honours_of_settings hsettings out
  · -- the first check refuses, and the options have not been looked at
    rw [hbroken] at hsettings
    rw [run, hsettings]

/-- The name of a settings file. -/
def settingsName : Bytes := [99, 46, 116, 111, 109, 108]

/-- A directory with a file of one record, and a settings file beside it. -/
def besideSettings (text : String) : FileTree where
  nodes := #[.directory 0 [(⟨[105, 110], by decide, by decide, by decide⟩, 1),
      (⟨settingsName, by decide, by decide, by decide⟩, 2)],
    .file #[97, 10], .file (Bytes.ofString text).toArray]
  root := 0
  current := 0

/-- The settings file has the text that it was given. -/
theorem besideSettings_text (text : String) :
    (besideSettings text).text settingsName = .ok text := by
  have hopen : OpenFile.ofPath (besideSettings text) settingsName = .ok ⟨2, 0⟩ := by cbv
  exact FileTree.text_of_open hopen rfl rfl

/-- Prints the record, with the settings file beside it and a limit of its own. -/
def printWithLimit (limit : Nat) : Options :=
  { path := [105, 110], config := some settingsName, maxTokenSize := some limit }

/-- The settings file says what ends a record. -/
def dashed : FileTree := besideSettings "delimiter = \"--\"\n"

/-- The settings file gives a limit that holds nothing but a delimiter. -/
def limited : FileTree := besideSettings "max_token_size = 1\n"

/-- The delimiter of the file and the limit of the option are checked together: a limit of two bytes
    holds nothing but the delimiter, and one of three bytes is enough. -/
theorem run_honours_merged_dashed :
    (∀ limit, (printWithLimit limit).Writes dashed [("delimiter", .string "--")]) ∧
    (run dashed {} (printWithLimit 2)).result = .error (.invalidSettings (.limitTooSmall 2 2)) ∧
    RunsOn dashed {} [105, 110] { delimiter := "--", maxTokenSize := 3 }
      (run dashed {} (printWithLimit 3)) := by
  have hline : Toml.statement "delimiter = \"--\"\n".toList =
      some (.assign [] "delimiter" (.string "--"), []) := by cbv
  have hwrites (limit : Nat) :
      (printWithLimit limit).Writes dashed [("delimiter", .string "--")] :=
    .document rfl (besideSettings_text _)
      (Toml.document?_of_assigns rfl (.line hline .done) (by decide)) (by decide +kernel)
  have hdescribes : Describes [("delimiter", .string "--")] {} { delimiter := "--" } :=
    ⟨.inl (by simp), .inr ⟨by decide, rfl⟩, .inr ⟨by decide, rfl⟩, .inr ⟨by decide, rfl⟩⟩
  have hhonours (limit : Nat) : Honours dashed {} [105, 110]
      { delimiter := "--", maxTokenSize := limit } (run dashed {} (printWithLimit limit)) := by
    obtain ⟨own, merged, hown, hmerged, hhonours, -⟩ := run_honours_merged (hwrites limit) {}
    obtain rfl := (hown _).mp hdescribes
    obtain rfl := (hmerged _).mp ((printWithLimit limit).merges_override hdescribes)
    exact hhonours rfl
  exact ⟨hwrites, ((hhonours 2).refused_iff _).mpr rfl, (hhonours 3).runs rfl⟩

/-- **A file is refused for what an option replaces.**  The limit in the file is too small, and
    the one that the option gives is not. -/
theorem overridden_limit_refused :
    CommandLine.read (["in", "--config", "c.toml", "--max-token-size", "50"].map Bytes.ofString) =
      .ok (.print (printWithLimit 50)) ∧
    (printWithLimit 50).Writes limited [("max_token_size", .integer 1)] ∧
    (printWithLimit 50).Merges [("max_token_size", .integer 1)] { maxTokenSize := 50 } ∧
    ({ maxTokenSize := 50 } : Settings).validate = .ok () ∧
    (run limited {} (printWithLimit 50)).result =
      .error (.invalidSettings (.limitTooSmall 1 1)) ∧
    ¬ Honours limited {} [105, 110] { maxTokenSize := 50 } (run limited {} (printWithLimit 50)) := by
  have htext : limited.text settingsName = .ok "max_token_size = 1\n" := besideSettings_text _
  have hline : Toml.statement "max_token_size = 1\n".toList =
      some (.assign [] "max_token_size" (.integer 1), []) := by cbv
  have hdocument : Toml.document? "max_token_size = 1\n" = some [("max_token_size", .integer 1)] :=
    Toml.document?_of_assigns rfl (.line hline .done) (by decide)
  have hdescribes : Describes [("max_token_size", .integer 1)] {} { maxTokenSize := 1 } :=
    ⟨.inr ⟨by decide, rfl⟩, .inl (by simp [writtenSize]), .inr ⟨by decide, rfl⟩,
      .inr ⟨by decide, rfl⟩⟩
  have hsettings : (printWithLimit 50).settings limited =
      .error (.invalidSettings (.limitTooSmall 1 1)) := by
    rw [Options.settings, printWithLimit]
    simp only [htext, Settings.ofDocument, Settings.read, hdocument]
    rfl
  have hrefused : (run limited {} (printWithLimit 50)).result =
      .error (.invalidSettings (.limitTooSmall 1 1)) := by
    rw [run, hsettings]
    rfl
  refine ⟨by decide +kernel, .document rfl htext hdocument (by decide +kernel),
    (printWithLimit 50).merges_override hdescribes, rfl, hrefused, fun hhonours => ?_⟩
  -- settings that are valid are refused by nobody who honours them
  have hbroken := (hhonours.refused_iff _).mp hrefused
  cases hbroken

end Printout

end RecordFeed
