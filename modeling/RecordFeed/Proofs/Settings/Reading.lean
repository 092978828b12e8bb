/-
  What a document of settings is answered with.

  The reader takes the entries of the document in turn and stops at the first it cannot use; the
  settings it arrives at are then validated.  Here the answer is said without any reader, from the
  entries alone:

    1.  an entry is at fault or not whatever stands around it (`entryFault?`): its key has to be a
        field, and its value of the field's type;
    2.  a document without a fault says of every field what its entry says, and what it does not
        mention keeps its default (`Describes`); with a fault, the first one is the answer
        (`Reads`);
    3.  settings are accepted if they also validate, and refused by the validation only if the
        document was read (`Judged`).

  One entry moves the settings as `Reads` says (`withEntry_reads`), and by induction on the entries
  the whole document does (`ofEntries_reads`).  The keys of a document are distinct, so `Describes`
  leaves room for one value in each field: the answer is the judged one and no other, and
  as no word of `Describes` is about the order of the entries, it is the same in any order.
-/
import Mathlib.Data.Option.Basic
import RecordFeed.Proofs.Settings.DistinctKeys
import RecordFeed.Settings.Document

namespace RecordFeed.Settings

open Toml (Value Distinct)

/-! ## One entry

  The reader goes by the names of the fields, and `fields` is the table of them. -/

/-- The fields of the settings, with the type that each asks for. -/
def fields : List (String × FieldType) :=
  [("delimiter", .text), ("max_token_size", .size), ("multipart", .flag),
    ("segment_capacity", .size)]

/-- What is wrong with a value where a type is asked for. -/
def valueFault? : FieldType → Value → Option DocumentFault
  | .text, .string _ => none
  | .size, .integer n => if 0 ≤ n then none else some (.negativeSize n)
  | .flag, .boolean _ => none
  | expected, found => some (.wrongType found expected)

/-- What is wrong with an entry. -/
def entryFault? (entry : String × Value) : Option DocumentFault :=
  match fields.lookup entry.1 with
  | none => some (.unknownField entry.1)
  | some expected => valueFault? expected entry.2

/-- A size, as a document writes it down. -/
def writtenSize (n : Nat) : Value := .integer (Int.ofNat n)

/-! ## A whole document

  What the reader does entry by entry is said here of all of them at once. -/

/-- A field that held `before` holds `after`: what its entry says, or, without an entry, what it
    held. -/
def Gives {α : Type} (entries : List (String × Value)) (key : String) (written : α → Value)
    (before after : α) : Prop :=
  (key, written after) ∈ entries ∨ key ∉ entries.map Prod.fst ∧ after = before

/-- The settings `s`, with what the entries say put in place, are `t`.  Each field goes by its own
    key, so that an entry is about one field. -/
structure Describes (entries : List (String × Value)) (s t : Settings) : Prop where
  delimiter : Gives entries "delimiter" Value.string s.delimiter t.delimiter
  maxTokenSize : Gives entries "max_token_size" writtenSize s.maxTokenSize t.maxTokenSize
  multipart : Gives entries "multipart" Value.boolean s.multipart t.multipart
  segmentCapacity :
    Gives entries "segment_capacity" writtenSize s.segmentCapacity t.segmentCapacity

/-- What reading the entries comes to, from the settings `s` on. -/
inductive Reads (entries : List (String × Value)) (s : Settings) :
    Except DocumentFault Settings → Prop where
  /-- No entry is at fault, and the settings are what the entries say. -/
  | read {t : Settings} (faultless : ∀ entry ∈ entries, entryFault? entry = none)
      (described : Describes entries s t) : Reads entries s (.ok t)
  /-- The first entry at fault is the answer, whatever comes behind it. -/
  | refused {before after : List (String × Value)} {entry : String × Value}
      {fault : DocumentFault} (split : entries = before ++ entry :: after)
      (faultless : ∀ earlier ∈ before, entryFault? earlier = none)
      (faulty : entryFault? entry = some fault) : Reads entries s (.error fault)

/-- The answer that a document with these entries deserves. -/
inductive Judged (entries : List (String × Value)) : Except FeedError Settings → Prop where
  | accepted {s : Settings} (reads : Reads entries {} (.ok s)) (valid : s.validate = .ok ()) :
      Judged entries (.ok s)
  | unreadable {fault : DocumentFault} (reads : Reads entries {} (.error fault)) :
      Judged entries (.error (.unreadableSettings fault))
  | invalid {s : Settings} {fault : SettingsFault} (reads : Reads entries {} (.ok s))
      (broken : s.validate = .error fault) : Judged entries (.error (.invalidSettings fault))

/-! ## The fields of a description

  A description goes field by field, and each field goes by its own entry.  So there is one
  lemma for all fields, and the four are put together from it. -/

section Gives

variable {α : Type} {entries rest : List (String × Value)} {entry : String × Value}
variable {key : String} {written : α → Value} {a b c : α}

theorem gives_nil : Gives [] key written a a := .inr ⟨List.not_mem_nil, rfl⟩

theorem gives_other {value : Value} {other : String} (h : key ≠ other) :
    Gives [(other, value)] key written a a :=
  .inr ⟨fun hmem => h (List.mem_singleton.mp hmem), rfl⟩

theorem gives_own {value : Value} (h : value = written b) : Gives [(key, value)] key written a b :=
  .inl (List.mem_singleton.mpr (by rw [h]))

/-- The first entry, and then the others.  If none of the others is of this field, it is the first
    one that counts. -/
theorem Gives.cons (hfirst : Gives [entry] key written a b) (hrest : Gives rest key written b c) :
    Gives (entry :: rest) key written a c := by
  rcases hrest with hlater | ⟨hnone, rfl⟩
  · exact .inl (List.mem_cons_of_mem _ hlater)
  · rcases hfirst with hown | ⟨hother, rfl⟩
    · exact .inl (List.mem_cons.mpr (.inl (List.mem_singleton.mp hown)))
    · refine .inr ⟨?_, rfl⟩
      intro hmem
      rcases List.mem_cons.mp hmem with hkey | hmem
      · exact hother (List.mem_singleton.mpr hkey)
      · exact hnone hmem

/-- The order of the entries does not matter. -/
theorem Gives.perm {entries' : List (String × Value)} (h : Gives entries key written a b)
    (hperm : entries'.Perm entries) : Gives entries' key written a b := by
  rcases h with hmem | ⟨hnone, hsame⟩
  · exact .inl (hperm.mem_iff.mpr hmem)
  · exact .inr ⟨fun hmem => hnone ((hperm.map Prod.fst).mem_iff.mp hmem), hsame⟩

/-- Distinct keys leave one value for a field. -/
theorem Gives.unique (hdistinct : Distinct entries)
    (hwritten : ∀ x y : α, written x = written y → x = y) (hb : Gives entries key written a b)
    (hc : Gives entries key written a c) : b = c := by
  rcases hb with hb | ⟨hnone, rfl⟩
  · rcases hc with hc | ⟨hnone, rfl⟩
    · -- both are the value under the one key
      exact hwritten b c (hdistinct.eq hb hc)
    · exact absurd (List.mem_map_of_mem hb) hnone
  · rcases hc with hc | ⟨-, rfl⟩
    · exact absurd (List.mem_map_of_mem hc) hnone
    · rfl

end Gives

section Describes

variable {entries rest : List (String × Value)} {entry : String × Value} {s t u : Settings}

theorem describes_nil : Describes [] s s := ⟨gives_nil, gives_nil, gives_nil, gives_nil⟩

/-- The first entry, and then the others.  Field by field. -/
theorem Describes.cons (hfirst : Describes [entry] s t) (hrest : Describes rest t u) :
    Describes (entry :: rest) s u where
  delimiter := hfirst.delimiter.cons hrest.delimiter
  maxTokenSize := hfirst.maxTokenSize.cons hrest.maxTokenSize
  multipart := hfirst.multipart.cons hrest.multipart
  segmentCapacity := hfirst.segmentCapacity.cons hrest.segmentCapacity

/-- In another order the entries describe the same settings. -/
theorem Describes.perm {entries' : List (String × Value)} (h : Describes entries s t)
    (hperm : entries'.Perm entries) : Describes entries' s t where
  delimiter := h.delimiter.perm hperm
  maxTokenSize := h.maxTokenSize.perm hperm
  multipart := h.multipart.perm hperm
  segmentCapacity := h.segmentCapacity.perm hperm

theorem writtenSize_injective (m n : Nat) (h : writtenSize m = writtenSize n) : m = n :=
  Int.ofNat.inj (Value.integer.inj h)

/-- Distinct keys describe one settings record.  Field by field. -/
theorem Describes.unique (hdistinct : Distinct entries) (ht : Describes entries s t)
    (hu : Describes entries s u) : t = u := by
  have hdelimiter := ht.delimiter.unique hdistinct (fun _ _ h => Value.string.inj h) hu.delimiter
  have hlimit := ht.maxTokenSize.unique hdistinct writtenSize_injective hu.maxTokenSize
  have hflag := ht.multipart.unique hdistinct (fun _ _ h => Value.boolean.inj h) hu.multipart
  have hcapacity := ht.segmentCapacity.unique hdistinct writtenSize_injective hu.segmentCapacity
  cases t
  cases u
  rw [Settings.mk.injEq]
  exact ⟨hdelimiter, hlimit, hflag, hcapacity⟩

end Describes

/-! ## The readings of a document

  The first fault is the answer, so a reading says of the entries before it that they have
  none. -/

section Reads

variable {entries rest : List (String × Value)} {entry : String × Value} {s t : Settings}

/-- The first fault of a document, read off the answer.  This is how two readings of one document
    are compared. -/
theorem Reads.findSome?_eq {answer : Except DocumentFault Settings}
    (h : Reads entries s answer) :
    entries.findSome? entryFault? = match answer with
      | .ok _ => none
      | .error fault => some fault := by
  cases h with
  | read faultless _ => exact List.findSome?_eq_none_iff.mpr faultless
  | refused split faultless faulty =>
    exact List.findSome?_eq_some_iff.mpr ⟨_, _, _, split, faulty, faultless⟩

/-- There is one reading: the first fault is the same in both, or there is none and the entries
    describe one record. -/
theorem Reads.unique (hdistinct : Distinct entries) {answer answer' : Except DocumentFault Settings}
    (h : Reads entries s answer) (h' : Reads entries s answer') : answer = answer' := by
  -- both say the same of the first fault
  have hfault := h.findSome?_eq.symm.trans h'.findSome?_eq
  cases h with
  | read _ described =>
    cases h' with
    | read _ described' => rw [described.unique hdistinct described']
    | refused => contradiction
  | refused =>
    cases h' with
    | read => contradiction
    | refused => rw [Option.some.inj hfault]

/-- A document without a fault is read the same in any order.  With a fault it need not be, since
    another entry may be the first one at fault. -/
theorem Reads.perm {entries' : List (String × Value)} (h : Reads entries s (.ok t))
    (hperm : entries'.Perm entries) : Reads entries' s (.ok t) := by
  cases h with
  | read faultless described =>
    refine .read ?_ (described.perm hperm)
    intro entry hentry
    exact faultless entry (hperm.mem_iff.mp hentry)

/-- An entry without a fault, and then the others.  What they come to, from where the first one has
    led, is what all come to. -/
theorem Reads.cons {answer : Except DocumentFault Settings} (hfirst : Reads [entry] s (.ok t))
    (hrest : Reads rest t answer) : Reads (entry :: rest) s answer := by
  cases hfirst with
  | read faultless described =>
    have hentry := faultless entry List.mem_cons_self
    cases hrest with
    | read hlater described' =>
      exact .read (List.forall_mem_cons.mpr ⟨hentry, hlater⟩) (described.cons described')
    | refused split hbefore faulty =>
      subst split
      exact .refused rfl (List.forall_mem_cons.mpr ⟨hentry, hbefore⟩) faulty

/-- An entry at fault ends the reading. -/
theorem reads_fault {fault : DocumentFault} (h : entryFault? entry = some fault) :
    Reads (entry :: rest) s (.error fault) :=
  .refused rfl (List.forall_mem_nil _) h

/-- And a single entry that is refused is at fault. -/
theorem Reads.fault {fault : DocumentFault} (h : Reads [entry] s (.error fault)) :
    entryFault? entry = some fault := by
  simpa using h.findSome?_eq

end Reads

/-! ## The reader

  From one value to one entry, and from there to the document. -/

/-- What the reading of one value comes to. -/
inductive ReadsValue {α : Type} (expected : FieldType) (written : α → Value) (value : Value) :
    Except DocumentFault α → Prop where
  | read {a : α} (faultless : valueFault? expected value = none) (same : value = written a) :
      ReadsValue expected written value (.ok a)
  | refused {fault : DocumentFault} (faulty : valueFault? expected value = some fault) :
      ReadsValue expected written value (.error fault)

/-- A text is read where a text is asked for, and nothing else. -/
theorem textOf_reads (value : Value) : ReadsValue .text Value.string value (textOf value) := by
  cases value with
  | string text => exact .read rfl rfl
  | _ => exact .refused rfl

/-- So is a flag. -/
theorem flagOf_reads (value : Value) : ReadsValue .flag Value.boolean value (flagOf value) := by
  cases value with
  | boolean b => exact .read rfl rfl
  | _ => exact .refused rfl

/-- And a size, which may not be negative. -/
theorem sizeOf_reads (value : Value) : ReadsValue .size writtenSize value (sizeOf value) := by
  cases value with
  | integer n =>
    cases n with
    | ofNat n =>
      have hnonneg : 0 ≤ Int.ofNat n := Int.natCast_nonneg n
      refine .read ?_ rfl
      rw [valueFault?, if_pos hnonneg]
    | negSucc n =>
      -- a negative number is a number and no size
      have hnegative : ¬0 ≤ Int.negSucc n := Int.not_le.mpr (Int.negSucc_lt_zero n)
      refine .refused ?_
      rw [valueFault?, if_neg hnegative]
  | _ => exact .refused rfl

/-- The entry of a field, read into the settings. -/
theorem ReadsValue.reads {α : Type} {expected : FieldType} {written : α → Value} {value : Value}
    {answer : Except DocumentFault α} {key : String} {s : Settings} {set : α → Settings}
    (h : ReadsValue expected written value answer) (hfield : fields.lookup key = some expected)
    (hset : ∀ a, value = written a → Describes [(key, value)] s (set a)) :
    Reads [(key, value)] s (answer.map set) := by
  have hentry : entryFault? (key, value) = valueFault? expected value := by
    unfold entryFault?
    rw [hfield]
  cases h with
  | read faultless same =>
    refine .read ?_ (hset _ same)
    intro entry hmem
    obtain rfl := List.mem_singleton.mp hmem
    exact hentry.trans faultless
  | refused faulty => exact reads_fault (hentry.trans faulty)

/-- One entry moves the settings as it says, or is refused for its fault.  The reader tries the
    names of the fields one after another. -/
theorem withEntry_reads (s : Settings) (key : String) (value : Value) :
    Reads [(key, value)] s (s.withEntry key value) := by
  -- a field each, in the order in which their names are tried, and then no field at all
  unfold withEntry
  split
  · subst key
    refine (textOf_reads value).reads rfl fun text hsame => ?_
    exact ⟨gives_own hsame, gives_other (by decide), gives_other (by decide),
      gives_other (by decide)⟩
  split
  · subst key
    refine (sizeOf_reads value).reads rfl fun size hsame => ?_
    exact ⟨gives_other (by decide), gives_own hsame, gives_other (by decide),
      gives_other (by decide)⟩
  split
  · subst key
    refine (flagOf_reads value).reads rfl fun flag hsame => ?_
    exact ⟨gives_other (by decide), gives_other (by decide), gives_own hsame,
      gives_other (by decide)⟩
  split
  · subst key
    refine (sizeOf_reads value).reads rfl fun size hsame => ?_
    exact ⟨gives_other (by decide), gives_other (by decide), gives_other (by decide),
      gives_own hsame⟩
  · rename_i hdelimiter hlimit hflag hcapacity
    have hnone : fields.lookup key = none := by
      simp only [fields, List.lookup_cons, List.lookup_nil, beq_false_of_ne hdelimiter,
        beq_false_of_ne hlimit, beq_false_of_ne hflag, beq_false_of_ne hcapacity]
    apply reads_fault
    unfold entryFault?
    rw [hnone]

/-- Entry by entry, the document is read as a whole.  By induction on the entries; the first one at
    fault ends it. -/
theorem foldlM_reads (entries : List (String × Value)) (s : Settings) :
    Reads entries s (entries.foldlM (fun s entry => s.withEntry entry.1 entry.2) s) := by
  induction entries generalizing s with
  | nil => exact .read (List.forall_mem_nil _) describes_nil
  | cons entry rest ih =>
    have hfirst := withEntry_reads s entry.1 entry.2
    rw [List.foldlM_cons]
    cases hstep : s.withEntry entry.1 entry.2 with
    | ok t =>
      rw [hstep] at hfirst
      exact hfirst.cons (ih t)
    | error fault =>
      rw [hstep] at hfirst
      exact reads_fault hfirst.fault

/-- The reader begins with the defaults. -/
theorem ofEntries_reads (entries : List (String × Value)) :
    Reads entries {} (ofEntries entries) :=
  foldlM_reads entries {}

/-! ## The answer

  The judgement and the answer are compared in both directions.  That there is one answer needs
  distinct keys, and that there is one at all does not. -/

variable {text : String} {entries : List (String × Value)}

/-- There is one answer.  By what the two judgements say; where they differ, so do the readings or
    what the validation says. -/
theorem Judged.unique (hdistinct : Distinct entries) {answer answer' : Except FeedError Settings}
    (h : Judged entries answer) (h' : Judged entries answer') : answer = answer' := by
  cases h with
  | accepted reads valid =>
    cases h' with
    | accepted reads' _ => rw [Except.ok.inj (reads.unique hdistinct reads')]
    | unreadable reads' => cases reads.unique hdistinct reads'
    | invalid reads' broken =>
      cases reads.unique hdistinct reads'
      cases valid.symm.trans broken
  | unreadable reads =>
    cases h' with
    | accepted reads' _ => cases reads.unique hdistinct reads'
    | unreadable reads' => rw [Except.error.inj (reads.unique hdistinct reads')]
    | invalid reads' _ => cases reads.unique hdistinct reads'
  | invalid reads broken =>
    cases h' with
    | accepted reads' valid =>
      cases reads.unique hdistinct reads'
      cases valid.symm.trans broken
    | unreadable reads' => cases reads.unique hdistinct reads'
    | invalid reads' broken' =>
      cases reads.unique hdistinct reads'
      rw [Except.error.inj (broken.symm.trans broken')]

/-- The program answers as the document deserves: it is read, and what was read is validated. -/
theorem ofDocument_judged (h : Toml.document? text = some entries) :
    Judged entries (ofDocument text) := by
  have hreads := ofEntries_reads entries
  -- the text parses to these entries, so they are what is read
  have hread : read text = ofEntries entries := by
    unfold read
    rw [h]
  unfold ofDocument
  rw [hread]
  cases hentries : ofEntries entries with
  | error fault =>
    rw [hentries] at hreads
    exact .unreadable hreads
  | ok s =>
    rw [hentries] at hreads
    dsimp only
    split
    · rename_i fault hbroken
      exact .invalid hreads hbroken
    · rename_i hvalid
      exact .accepted hreads hvalid

/-- A document is answered as it deserves, and in no other way. -/
theorem ofDocument_eq_iff (h : Toml.document? text = some entries)
    (answer : Except FeedError Settings) : ofDocument text = answer ↔ Judged entries answer := by
  constructor
  · rintro rfl
    exact ofDocument_judged h
  · exact (ofDocument_judged h).unique (Toml.document?_distinct h)

/-- Accepted settings are accepted in any order of the entries. -/
theorem Judged.perm {s : Settings} {entries' : List (String × Value)}
    (h : Judged entries (.ok s)) (hperm : entries'.Perm entries) : Judged entries' (.ok s) := by
  cases h with
  | accepted reads valid => exact .accepted (reads.perm hperm) valid

/-- Accepted settings are valid. -/
theorem Judged.valid {s : Settings} (h : Judged entries (.ok s)) : s.validate = .ok () := by
  cases h with
  | accepted _ valid => exact valid

/-- **Settings from a document.**  The keys of a document are distinct, and its answer is decided by
    its entries: the settings they describe, if no entry is at fault and the settings validate; the
    fault of the first entry that has one; and only without such an entry what the validation
    refuses.  Accepted settings fit together, and the same entries in another order are accepted as
    the same settings. -/
theorem ofDocument_iff_judged (h : Toml.document? text = some entries) :
    (entries.map Prod.fst).Nodup ∧
      (∀ answer, ofDocument text = answer ↔ Judged entries answer) ∧
      ∀ s, ofDocument text = .ok s →
        (1 ≤ s.delimiterBytes.length ∧ s.delimiterBytes.length < s.maxTokenSize ∧
            1 ≤ s.segmentCapacity) ∧
          ∀ entries', entries'.Perm entries → Judged entries' (.ok s) ∧
            ∀ text', Toml.document? text' = some entries' → ofDocument text' = .ok s := by
  refine ⟨Toml.document?_distinct h, ofDocument_eq_iff h, ?_⟩
  intro s hs
  have hjudged := (ofDocument_eq_iff h _).mp hs
  refine ⟨(validate_eq_ok_iff s).mp hjudged.valid, ?_⟩
  intro entries' hperm
  have hjudged' := hjudged.perm hperm
  exact ⟨hjudged', fun text' h' => (ofDocument_eq_iff h' _).mpr hjudged'⟩

/-- Two lines give the same settings either way round, and a flag that is a number is reported where
    the size above it would not have validated. -/
theorem ofDocument_either_order :
    ofDocument "multipart = true\ndelimiter = \"--\"\n" =
        .ok { delimiter := "--", multipart := true } ∧
      ofDocument "delimiter = \"--\"\nmultipart = true\n" =
        .ok { delimiter := "--", multipart := true } ∧
      ofDocument "max_token_size = 0\nmultipart = 1\n" =
        .error (.unreadableSettings (.wrongType (.integer 1) .flag)) := by
  -- the three documents, line by line
  have hflagFirst : Toml.Assigns "multipart = true\ndelimiter = \"--\"\n".toList
      [("multipart", .boolean true), ("delimiter", .string "--")] := by
    have hflag : Toml.statement "multipart = true\ndelimiter = \"--\"\n".toList =
        some (.assign [] "multipart" (.boolean true), "delimiter = \"--\"\n".toList) := by cbv
    have hdelimiter : Toml.statement "delimiter = \"--\"\n".toList =
        some (.assign [] "delimiter" (.string "--"), []) := by cbv
    exact .line hflag (.line hdelimiter .done)
  have hflagLast : Toml.Assigns "delimiter = \"--\"\nmultipart = true\n".toList
      [("delimiter", .string "--"), ("multipart", .boolean true)] := by
    have hdelimiter : Toml.statement "delimiter = \"--\"\nmultipart = true\n".toList =
        some (.assign [] "delimiter" (.string "--"), "multipart = true\n".toList) := by cbv
    have hflag : Toml.statement "multipart = true\n".toList =
        some (.assign [] "multipart" (.boolean true), []) := by cbv
    exact .line hdelimiter (.line hflag .done)
  have hfaulty : Toml.Assigns "max_token_size = 0\nmultipart = 1\n".toList
      [("max_token_size", .integer 0), ("multipart", .integer 1)] := by
    have hsize : Toml.statement "max_token_size = 0\nmultipart = 1\n".toList =
        some (.assign [] "max_token_size" (.integer 0), "multipart = 1\n".toList) := by cbv
    have hflag : Toml.statement "multipart = 1\n".toList =
        some (.assign [] "multipart" (.integer 1), []) := by cbv
    exact .line hsize (.line hflag .done)
  obtain ⟨-, hanswer, haccepted⟩ :=
    ofDocument_iff_judged (Toml.document?_of_assigns rfl hflagFirst (by decide))
  have hdescribes : Describes [("multipart", .boolean true), ("delimiter", .string "--")] {}
      { delimiter := "--", multipart := true } :=
    ⟨.inl (by simp), .inr ⟨by decide, rfl⟩, .inl (by simp), .inr ⟨by decide, rfl⟩⟩
  have hok := (hanswer (.ok { delimiter := "--", multipart := true })).mpr
    (.accepted (.read (by decide +kernel) hdescribes) rfl)
  have hturned := ((haccepted _ hok).2 _ (List.Perm.swap _ _ _)).2 _
    (Toml.document?_of_assigns rfl hflagLast (by decide))
  obtain ⟨-, hrefused, -⟩ :=
    ofDocument_iff_judged (Toml.document?_of_assigns rfl hfaulty (by decide))
  refine ⟨hok, hturned, (hrefused _).mpr (.unreadable ?_)⟩
  -- the size is a size, and the flag behind it is no flag
  have hsplit : [("max_token_size", Value.integer 0), ("multipart", .integer 1)] =
    [("max_token_size", .integer 0)] ++ ("multipart", .integer 1) :: [] := rfl
  exact .refused hsplit (by decide +kernel) rfl

end RecordFeed.Settings
