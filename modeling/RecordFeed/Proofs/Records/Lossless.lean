/-
  Records survive scanning.

  A list of records is written by putting the delimiter behind each of them.  Scanning what was
  written gives the records again, and what is scanned without an error is what was written of its
  records.

  1. **Which records can be written** (`EndedBy`).  The delimiter behind the record has to be the
     first one in both together.  It is not enough that the record holds no delimiter: a record that
     ends with the beginning of one may complete it too early, as `a` does before `aa`.

  2. **Read after write** (`cut_written`).  A delimiter ends a record whatever comes behind it
     (`firstCut_of_ended`), so the records come off one by one.

  3. **Write after read** (`writtenAs_of_cut`).  Every cut takes the bytes before the first
     delimiter, and behind them that delimiter; only the last record may be without one
     (`WrittenAs`).

  The limit has to be positive even if there are no records: a buffer that may hold nothing is full
  before the handle is read for the first time (`written_nothing_too_large`).
-/
import RecordFeed.Proofs.Records.Scanning

namespace RecordFeed

/-! ## Writing records

  What is written is defined with nothing of the scan in it.  It is asked of the records only
  that they can be told apart afterwards. -/

/-- The delimiter behind the record is the first one in both together.  It is more than that the
    record does not hold the delimiter: a record that ends as the delimiter begins would be cut
    short. -/
def EndedBy (delimiter record : Bytes) : Prop :=
  Bytes.firstAt? delimiter (record ++ delimiter) = some record.length

instance (delimiter record : Bytes) : Decidable (EndedBy delimiter record) :=
  inferInstanceAs (Decidable (_ = _))

/-- The records one after another, each with the delimiter behind it. -/
def written (delimiter : Bytes) (records : List Bytes) : Bytes :=
  records.flatMap fun record => record ++ delimiter

@[simp] theorem written_nil (delimiter : Bytes) : written delimiter [] = [] := rfl

@[simp] theorem written_cons (delimiter record : Bytes) (records : List Bytes) :
    written delimiter (record :: records) = record ++ delimiter ++ written delimiter records := rfl

/-- Some bytes are written of some records, with a delimiter behind each of them or behind each but
    the last, which then is not blank and holds no delimiter.  The relation is not a function of the
    records, for the last delimiter may be missing, and that is all the freedom there is. -/
inductive WrittenAs (delimiter : Bytes) : Bytes → List Bytes → Prop where
  | ended {records : List Bytes} (each : ∀ record ∈ records, EndedBy delimiter record) :
      WrittenAs delimiter (written delimiter records) records
  | open_ended {records : List Bytes} {last : Bytes}
      (each : ∀ record ∈ records, EndedBy delimiter record) (not_blank : last ≠ [])
      (undivided : ∀ i, ¬ Bytes.Occurs delimiter last i) :
      WrittenAs delimiter (written delimiter records ++ last) (records ++ [last])

theorem WrittenAs.cons {delimiter record rest : Bytes} {records : List Bytes}
    (hended : EndedBy delimiter record) (h : WrittenAs delimiter rest records) :
    WrittenAs delimiter (record ++ delimiter ++ rest) (record :: records) := by
  cases h with
  | ended each => exact .ended (List.forall_mem_cons.mpr ⟨hended, each⟩)
  | open_ended each not_blank undivided =>
    rw [← List.append_assoc, ← written_cons, ← List.cons_append]
    exact .open_ended (List.forall_mem_cons.mpr ⟨hended, each⟩) not_blank undivided

/-- A delimiter that is the first one in some bytes ends the record before it. -/
theorem endedBy_of_firstAt? {delimiter record rest : Bytes}
    (h : Bytes.firstAt? delimiter (record ++ delimiter ++ rest) = some record.length) :
    EndedBy delimiter record := by
  obtain ⟨hoccurs, hleast⟩ := Bytes.firstAt?_eq_some_iff.mp h
  have hpart := List.prefix_append (record ++ delimiter) rest
  refine Bytes.firstAt?_eq_some_iff.mpr ⟨?_, ?_⟩
  · exact hoccurs.of_add_length_le hpart (by rw [List.length_append])
  · intro j hj hearlier
    exact hleast j hj (hearlier.of_prefix hpart)

/-! ## Read after write

  One record at a time comes off the front, and the others are written behind it. -/

variable {delimiter : Bytes} {limit : Nat} {ending : StreamEnd}

/-- A record that is ended by its delimiter is cut there, whatever comes behind. -/
theorem firstCut_of_ended {record : Bytes} (hended : EndedBy delimiter record)
    (hfits : record.length + delimiter.length ≤ limit) (rest : Bytes) :
    firstCut delimiter limit ending (record ++ delimiter ++ rest) = .record record rest := by
  have hpart := List.prefix_append (record ++ delimiter) rest
  have hle : (record ++ delimiter).length ≤ limit := by rwa [List.length_append]
  rw [firstCut_of_found hpart hle hended, List.take_left, ← List.length_append, List.drop_left]

/-- **What was written is read again.** By induction on the records.  Each record is cut where it
    ends, whatever comes behind it, so the induction hypothesis is about the others alone. -/
theorem cut_written {records : List Bytes} (hpos : 0 < limit)
    (hfits : ∀ record ∈ records,
      EndedBy delimiter record ∧ record.length + delimiter.length ≤ limit) :
    cut delimiter limit .over (written delimiter records) = { records, outcome := .ok () } := by
  induction records with
  | nil => exact cut_nil hpos
  | cons record records ih =>
    obtain ⟨⟨hended, hle⟩, hlater⟩ := List.forall_mem_cons.mp hfits
    rw [written_cons, cut_of_record (firstCut_of_ended hended hle _), ih hlater]
    rfl

/-! ## Write after read

  The last record may have had no delimiter behind it, and this is all that is lost. -/

/-- **What is read without an error was written of its records.** By induction on the cuts.  A
    record before a delimiter is put in front of what the others were written as, and a last record
    without one ends the induction. -/
theorem writtenAs_of_cut {bytes : Bytes}
    (h : (cut delimiter limit .over bytes).outcome = .ok ()) :
    WrittenAs delimiter bytes (cut delimiter limit .over bytes).records := by
  fun_induction cut delimiter limit .over bytes with
  | case1 bytes record rest hcut ih =>
    rcases of_firstCut hcut with ⟨rfl, hfirst, -⟩ | ⟨-, rfl, rfl, hne, hbelow, hnone⟩
    · exact (ih h).cons (endedBy_of_firstAt? hfirst)
    · -- the last record takes all that is left
      rw [cut_nil (by omega)]
      have hundivided := Bytes.firstAt?_eq_none_iff.mp hnone
      exact .open_ended (List.forall_mem_nil _) hne hundivided
  | case2 bytes outcome hcut =>
    obtain rfl : outcome = .ok () := h
    rw [eq_nil_of_firstCut hcut]
    exact .ended (List.forall_mem_nil _)

/-! ## Scanning

  Both directions are about cuts.  They hold of a scanner because its records are those of the
  cut, however the bytes arrive. -/

namespace Scanner

variable {ω η : Type} [ByteSource ω η]

/-- **Records survive scanning**, whatever the delimiter and the limit, and however the bytes
    arrive.  What was written of records that the delimiter ends and that the limit admits is
    scanned as just these records, without an error.  And bytes that are scanned without an error
    are what is written of the records scanned, where the delimiter may be missing behind the
    last one. -/
theorem records_survive (w : ω) (delimiter : Bytes) (limit : Nat) :
    (∀ records : List Bytes, 0 < limit →
      (∀ record ∈ records,
        EndedBy delimiter record ∧ record.length + delimiter.length ≤ limit) →
      ∀ handle : η, Delivers w handle (written delimiter records) .over →
        drain w (fresh handle ⟨delimiter⟩ limit) = { records, outcome := .ok () }) ∧
    ∀ (bytes : Bytes) (handle : η), Delivers w handle bytes .over →
      (drain w (fresh handle ⟨delimiter⟩ limit)).outcome = .ok () →
        WrittenAs delimiter bytes (drain w (fresh handle ⟨delimiter⟩ limit)).records := by
  constructor
  · intro records hpos hfits handle hdelivers
    rw [drain_of_faces (faces_start hdelivers)]
    exact cut_written hpos hfits
  · intro bytes handle hdelivers houtcome
    rw [drain_of_faces (faces_start hdelivers)] at houtcome ⊢
    exact writtenAs_of_cut houtcome

/-- A blank record, one without a byte of the delimiter, and one that begins like it. -/
def threeRecords : List Bytes := [[], [98], [97, 98]]

/-- They arrive in pieces that part the delimiter `aa`. -/
def inPieces : Script :=
  ⟨[.data [97], .interrupts, .data [97, 98, 97], .data [97, 97, 98], .data [97, 97]]⟩

/-- Half a delimiter comes behind them. -/
def withRest : Script := ⟨inPieces.cues ++ [.data [97]]⟩

/-- Blank records, a record that begins like the delimiter, and delimiters that arrive in two
    reads: they are scanned as they were written, and so is half a delimiter behind them, as a
    last record. -/
theorem records_survive_in_pieces :
    0 < 4 ∧
    (∀ record ∈ threeRecords, EndedBy [97, 97] record ∧ record.length + 2 ≤ 4) ∧
    Delivers (⟨0⟩ : Switch) inPieces (written [97, 97] threeRecords) .over ∧
    drain (⟨0⟩ : Switch) (fresh inPieces ⟨[97, 97]⟩ 4) =
      { records := threeRecords, outcome := .ok () } ∧
    Delivers (⟨0⟩ : Switch) withRest (written [97, 97] threeRecords ++ [97]) .over ∧
    (drain (⟨0⟩ : Switch) (fresh withRest ⟨[97, 97]⟩ 4)).outcome = .ok () ∧
    WrittenAs [97, 97] (written [97, 97] threeRecords ++ [97])
      (drain (⟨0⟩ : Switch) (fresh withRest ⟨[97, 97]⟩ 4)).records :=
  have hended : ∀ record ∈ threeRecords, EndedBy [97, 97] record ∧ record.length + 2 ≤ 4 := by
    decide
  have hpieces : Delivers (⟨0⟩ : Switch) inPieces (written [97, 97] threeRecords) .over :=
    Script.delivers rfl inPieces
  have hrest : Delivers (⟨0⟩ : Switch) withRest (written [97, 97] threeRecords ++ [97]) .over :=
    Script.delivers rfl withRest
  have hscan : (drain (⟨0⟩ : Switch) (fresh withRest ⟨[97, 97]⟩ 4)).outcome = .ok () := by
    rw [drain_of_faces (faces_start hrest)]
    cbv
  have hsurvive := records_survive (η := Script) (⟨0⟩ : Switch) [97, 97] 4
  ⟨by decide, hended, hpieces, hsurvive.1 threeRecords (by decide) hended inPieces hpieces, hrest,
    hscan, hsurvive.2 _ withRest hrest hscan⟩

/-- **With a limit of nothing even no records are too large.**  What is written of no records is
    nothing, and a buffer that may hold nothing is full before the end of the stream is seen. -/
theorem written_nothing_too_large :
    drain (⟨0⟩ : Switch) (fresh (⟨[]⟩ : Script) ⟨[10]⟩ 0) =
      { records := [], outcome := .error (.tokenTooLarge 0) } ∧
    ¬ ∀ (delimiter : Bytes) (limit : Nat) (records : List Bytes), delimiter ≠ [] →
      (∀ record ∈ records,
        EndedBy delimiter record ∧ record.length + delimiter.length ≤ limit) →
      ∀ handle : Script, Delivers (⟨0⟩ : Switch) handle (written delimiter records) .over →
        drain (⟨0⟩ : Switch) (fresh handle ⟨delimiter⟩ limit) = { records, outcome := .ok () } := by
  have hnothing : Delivers (⟨0⟩ : Switch) (⟨[]⟩ : Script) (written [10] []) .over :=
    Script.delivers rfl _
  have htoo : drain (⟨0⟩ : Switch) (fresh (⟨[]⟩ : Script) ⟨[10]⟩ 0) =
      { records := [], outcome := .error (.tokenTooLarge 0) } := by
    rw [drain_of_faces (faces_start hnothing)]
    cbv
  refine ⟨htoo, fun hall => ?_⟩
  have hclaimed := hall [10] 0 [] (by decide) (List.forall_mem_nil _) ⟨[]⟩ hnothing
  rw [htoo] at hclaimed
  simp at hclaimed

end Scanner

end RecordFeed
