/-
  No key stands twice in a document.

  The reader of settings takes the entries one after another and lets a later one replace an
  earlier one, so what it makes of them would depend on their order if a key could come twice.  It
  cannot, and the parser's way of adding to a table is the reason:

    1.  a new key is put in front only where it was looked for and not found, and every other
        addition changes what stands under a key that is already there;
    2.  a header that opens a table mentioned before takes its key away and puts it in front;
    3.  so every statement keeps the keys of the root distinct (`apply_distinct`), and a document,
        being the statements from the empty root on, has distinct keys (`document?_distinct`).

  The tables below the root are of no concern here, for the walk to them (`updateAt`) only puts
  back under the first key of its path what came out below.

  Distinct keys are also all that it takes: assignments to the root under distinct keys are added
  one behind the other, and the document is the list of them (`document?_of_assigns`).  So what a
  plain document says is known from what its lines say.
-/
import Mathlib.Data.List.Nodup
import RecordFeed.Toml.Document

namespace RecordFeed.Toml

/-! ## Distinct keys

  Only keys are compared, so that entries, nodes and values can all be spoken of. -/

/-- No key stands twice. -/
def Distinct {α : Type} (entries : List (String × α)) : Prop := (entries.map Prod.fst).Nodup

variable {α : Type} {entries : List (String × α)} {key : String}

instance : Decidable (Distinct entries) :=
  inferInstanceAs (Decidable (entries.map Prod.fst).Nodup)

theorem distinct_nil : Distinct ([] : List (String × α)) := List.nodup_nil

theorem Distinct.cons (h : Distinct entries) (hfresh : key ∉ entries.map Prod.fst) (a : α) :
    Distinct ((key, a) :: entries) :=
  List.nodup_cons.mpr ⟨hfresh, h⟩

/-- Under one key stands one thing. -/
theorem Distinct.eq (h : Distinct entries) {a b : α} (ha : (key, a) ∈ entries)
    (hb : (key, b) ∈ entries) : a = b :=
  congrArg Prod.snd (List.inj_on_of_nodup_map h ha hb rfl)

namespace Entries

/-! ## Looking up, putting and taking away

  The three operations on the entries of one table. -/

variable {entries : Entries} {key : String}

/-- A key is looked for in vain exactly where it is none of the keys. -/
theorem find?_eq_none_iff : entries.find? key = none ↔ key ∉ entries.map Prod.fst := by
  rw [find?, Option.map_eq_none_iff, List.find?_eq_none]
  constructor
  · intro hnone hmem
    obtain ⟨entry, hentry, rfl⟩ := List.mem_map.mp hmem
    exact hnone entry hentry (beq_self_eq_true _)
  · intro habsent entry hentry hsame
    rw [← beq_iff_eq.mp hsame] at habsent
    exact habsent (List.mem_map_of_mem hentry)

/-- What is put under a key that is there takes the old one's place among the keys.  No key is added
    and none goes away. -/
theorem map_fst_replaced (entries : Entries) (key : String) (node : Node) :
    (entries.map fun entry => if entry.1 == key then (key, node) else entry).map Prod.fst =
      entries.map Prod.fst := by
  rw [List.map_map]
  apply List.map_congr_left
  intro entry _
  by_cases h : entry.1 = key
  · simp [h]
  · simp [h]

/-- Putting replaces what is under the key, or adds a key that is not there. -/
theorem distinct_put (h : Distinct entries) (key : String) (node : Node) :
    Distinct (entries.put key node) := by
  unfold put
  split
  · unfold Distinct
    rw [map_fst_replaced]
    exact h
  · rename_i habsent
    apply h.cons
    intro hmem
    obtain ⟨entry, hentry, hkey⟩ := List.mem_map.mp hmem
    exact habsent (List.any_eq_true.mpr ⟨entry, hentry, beq_iff_eq.mpr hkey⟩)

/-- Taking a key away leaves the others. -/
theorem distinct_erase (h : Distinct entries) (key : String) : Distinct (entries.erase key) :=
  h.sublist (List.filter_sublist.map Prod.fst)

/-- And it is not among them. -/
theorem notMem_erase (entries : Entries) (key : String) :
    key ∉ (entries.erase key).map Prod.fst := by
  intro hmem
  obtain ⟨entry, hentry, rfl⟩ := List.mem_map.mp hmem
  have hother := (List.mem_filter.mp hentry).2
  exact bne_iff_ne.mp hother rfl

/-! ## Adding to a table

  What a statement does happens at the end of a path.  On the way there the tables keep their
  keys, since each of them is put back under the key where it was found. -/

/-- An update that keeps distinct keys distinct does so at the end of any path: the table above is
    changed at the first key of the path only. -/
theorem updateAt_distinct {viaDots : Bool} {update : Origin → Entries → Option Entries}
    {path : List String} {origin : Origin} {updated : Entries}
    (hupdate : ∀ updated, update origin entries = some updated → Distinct updated)
    (h : Distinct entries)
    (hdone : updateAt viaDots update path origin entries = some updated) : Distinct updated := by
  cases path with
  | nil => exact hupdate updated hdone
  | cons first path =>
    unfold updateAt at hdone
    -- by what stands under the first key of the path: a table, an inline one, an array, or nothing
    -- to go on from
    split at hdone
    · obtain ⟨below, -, rfl⟩ := Option.map_eq_some_iff.mp hdone
      exact distinct_put h _ _
    · split at hdone
      · contradiction
      · obtain ⟨below, -, rfl⟩ := Option.map_eq_some_iff.mp hdone
        exact distinct_put h _ _
    · obtain ⟨latest, -, rfl⟩ := Option.map_eq_some_iff.mp hdone
      exact distinct_put h _ _
    · contradiction

/-- A new key is refused where it is there already. -/
theorem addNew_distinct {value : Value} {updated : Entries} (h : Distinct entries)
    (hdone : addNew key value entries = some updated) : Distinct updated := by
  unfold addNew at hdone
  split at hdone
  · contradiction
  · rename_i habsent
    obtain rfl := Option.some.inj hdone
    exact h.cons (find?_eq_none_iff.mp (Option.not_isSome_iff_eq_none.mp habsent)) _

/-- An assignment adds a new key at the end of its path. -/
theorem addValue_distinct {path : List String} {value : Value} {origin : Origin}
    {updated : Entries} (h : Distinct entries)
    (hdone : addValue path key value origin entries = some updated) : Distinct updated := by
  unfold addValue at hdone
  split at hdone
  · exact addNew_distinct h hdone
  · refine updateAt_distinct ?_ h hdone
    intro reached hreached
    split at hreached
    · exact addNew_distinct h hreached
    · contradiction

/-- A header for a table adds a new key, or moves one that is there to the front. -/
theorem openTable_distinct {updated : Entries} (h : Distinct entries)
    (hdone : openTable key entries = some updated) : Distinct updated := by
  unfold openTable at hdone
  split at hdone
  · rename_i habsent
    obtain rfl := Option.some.inj hdone
    exact h.cons (find?_eq_none_iff.mp habsent) _
  · obtain rfl := Option.some.inj hdone
    exact (distinct_erase h key).cons (notMem_erase entries key) _
  · contradiction

/-- A header for an element adds a new key, or a further element under one that is there. -/
theorem openElement_distinct {updated : Entries} (h : Distinct entries)
    (hdone : openElement key entries = some updated) : Distinct updated := by
  unfold openElement at hdone
  split at hdone
  · rename_i habsent
    obtain rfl := Option.some.inj hdone
    exact h.cons (find?_eq_none_iff.mp habsent) _
  · obtain rfl := Option.some.inj hdone
    exact distinct_put h key _
  · contradiction

end Entries

/-! ## From statements to the document

  The root has distinct keys after every statement.  The document lists the values under the
  keys of the root, and no others. -/

/-- Every statement keeps the keys of the root distinct.  One case for each kind of statement. -/
theorem Draft.apply_distinct {d d' : Draft} {s : Statement} (h : Distinct d.root)
    (hdone : d.apply s = some d') : Distinct d'.root := by
  cases s with
  | blank =>
    obtain rfl := Option.some.inj hdone
    exact h
  | assign path key value =>
    obtain ⟨root, hroot, rfl⟩ := Option.map_eq_some_iff.mp hdone
    refine Entries.updateAt_distinct ?_ h hroot
    intro updated hadd
    exact Entries.addValue_distinct h hadd
  | openTable path key =>
    obtain ⟨root, hroot, rfl⟩ := Option.map_eq_some_iff.mp hdone
    refine Entries.updateAt_distinct ?_ h hroot
    intro updated hopen
    exact Entries.openTable_distinct h hopen
  | openElement path key =>
    obtain ⟨root, hroot, rfl⟩ := Option.map_eq_some_iff.mp hdone
    refine Entries.updateAt_distinct ?_ h hroot
    intro updated hopen
    exact Entries.openElement_distinct h hopen

/-- So do statements one after another.  By induction on them. -/
theorem Draft.foldlM_distinct {statements : List Statement} {d d' : Draft} (h : Distinct d.root)
    (hdone : statements.foldlM Draft.apply d = some d') : Distinct d'.root := by
  induction statements generalizing d with
  | nil =>
    obtain rfl := Option.some.inj hdone
    exact h
  | cons s statements ih =>
    rw [List.foldlM_cons] at hdone
    obtain ⟨next, hnext, hrest⟩ := Option.bind_eq_some_iff.mp hdone
    exact ih (Draft.apply_distinct h hnext) hrest

/-- The values come out under the keys of their nodes, turned round.  By induction on the
    entries. -/
theorem Entries.map_fst_valuesBefore (entries : Entries) (later : List (String × Value)) :
    (Entries.valuesBefore entries later).map Prod.fst =
      (entries.map Prod.fst).reverse ++ later.map Prod.fst := by
  induction entries generalizing later with
  | nil => simp [Entries.valuesBefore]
  | cons entry entries ih => simp [Entries.valuesBefore, ih]

/-- The values stand under the same keys. -/
theorem Entries.toValues_distinct {entries : Entries} (h : Distinct entries) :
    Distinct entries.toValues := by
  unfold Distinct Entries.toValues
  rw [Entries.map_fst_valuesBefore, List.map_nil, List.append_nil]
  exact List.nodup_reverse.mpr h

/-- **The keys of a document are distinct.** -/
theorem document?_distinct {text : String} {entries : List (String × Value)}
    (h : document? text = some entries) : Distinct entries := by
  -- a document comes out of a draft, and a draft out of the empty root
  unfold document? at h
  obtain ⟨-, -, h⟩ := Option.bind_eq_some_iff.mp h
  obtain ⟨draft, hdraft, h⟩ := Option.bind_eq_some_iff.mp h
  obtain rfl := Option.some.inj h
  exact Entries.toValues_distinct (Draft.foldlM_distinct distinct_nil hdraft)

/-! ## Documents of assignments

  The simplest documents have neither headers nor dots.  Of these it can be said what they are,
  line by line, without going through the parser again for each of them. -/

/-- Lines to the end of a text, each of which gives a key of the root its value.  The lines are read
    with the parser itself, so that a document is known as soon as each of its lines is. -/
inductive Assigns : List Char → List (String × Value) → Prop where
  | done : Assigns [] []
  | line {s rest : List Char} {key : String} {value : Value} {entries : List (String × Value)}
      (hline : statement s = some (.assign [] key value, rest)) (hlater : Assigns rest entries) :
      Assigns s ((key, value) :: entries)

/-- The statements of such a text are these assignments.  By induction on the lines. -/
theorem Assigns.many_eq {s : List Char} {entries : List (String × Value)} (h : Assigns s entries) :
    many statement statement_hungry s =
      (entries.map fun entry => Statement.assign [] entry.1 entry.2, []) := by
  induction h with
  | done => exact many_of_none rfl
  | line hline hlater ih => exact many_of_some hline ih

/-- What was read before stands in front of what is read later.  By induction on the entries. -/
theorem Entries.valuesBefore_append (entries : Entries) (later : List (String × Value)) :
    Entries.valuesBefore entries later = Entries.toValues entries ++ later := by
  unfold Entries.toValues
  induction entries generalizing later with
  | nil => simp [Entries.valuesBefore]
  | cons entry entries ih =>
    rw [Entries.valuesBefore, ih, Entries.valuesBefore, ih [_], List.append_assoc,
      List.singleton_append]

/-- Assignments to the root add to the end of a document, as long as no key comes twice.  By
    induction on the lines: the document so far and the lines to come are together the document
    in the end. -/
theorem Draft.foldlM_assign {root : Entries} {entries : List (String × Value)}
    (h : Distinct (Entries.toValues root ++ entries)) :
    ∃ root', (entries.map fun entry => Statement.assign [] entry.1 entry.2).foldlM Draft.apply
        { root } = some { root := root' } ∧
      Entries.toValues root' = Entries.toValues root ++ entries := by
  induction entries generalizing root with
  | nil => exact ⟨root, rfl, (List.append_nil _).symm⟩
  | cons entry entries ih =>
    obtain ⟨key, value⟩ := entry
    have hvalues : Entries.toValues ((key, .value value) :: root) =
        Entries.toValues root ++ [(key, value)] := Entries.valuesBefore_append root _
    -- the key comes once in all, so it is not in the document so far
    have habsent : Entries.find? root key = none := by
      rw [Entries.find?_eq_none_iff]
      intro hmem
      rw [Distinct, List.map_append, Entries.toValues, Entries.map_fst_valuesBefore] at h
      have hdisjoint := List.disjoint_of_nodup_append h
      exact hdisjoint (by simpa using hmem) List.mem_cons_self
    have hadd : Draft.apply { root } (.assign [] key value) =
        some { root := (key, .value value) :: root } := by
      simp [Draft.apply, Entries.updateAt, Entries.addValue, Entries.addNew, habsent]
    rw [List.append_cons, ← hvalues] at h
    obtain ⟨root', hrest, hroot'⟩ := ih h
    refine ⟨root', ?_, ?_⟩
    · rw [List.map_cons, List.foldlM_cons, hadd]
      exact hrest
    · rw [hroot', hvalues, List.append_assoc, List.singleton_append]

/-- **A text of assignments under distinct keys is the document of just these**, in their order. -/
theorem document?_of_assigns {text : String} {entries : List (String × Value)}
    (hmark : skipMark text.toList = text.toList) (h : Assigns text.toList entries)
    (hkeys : Distinct entries) : document? text = some entries := by
  have hstart : Distinct (Entries.toValues [] ++ entries) := hkeys
  obtain ⟨root, hdraft, hroot⟩ := Draft.foldlM_assign hstart
  have hread := h.many_eq
  rw [← hmark] at hread
  exact document?_of_statements hread hdraft hroot

end RecordFeed.Toml
