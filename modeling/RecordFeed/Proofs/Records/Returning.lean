/-
  Every call returns.

  A call goes round three loops: it reads until a read is not interrupted, it makes room and reads
  until the policy is satisfied, and a read of a message goes on with the next record.  Making room
  consumes nothing, and what a policy decides may depend on anything.

  1. **Handles** (`Reader.Finishes`).  There is no endless sequence of reads that give bytes or are
     interrupted (`Reader.finishes_iff`).  Nothing is asked of a handle after that, and nothing
     bounds the bytes beforehand.

  2. **Callers** (`Satisfied`, `Returns`).  A caller takes one answer after another until it wants
     no more: the caller of a scanner takes one, and a read of a message takes records until the
     message is complete (`Assembly.want`, `gather_calls`).

  3. **The crux** (`returns_of_finishes`).  A step that reads and goes on has moved on in the
     sequence of reads; a record that is not enough has made the window shorter and left the handle
     where it was.  So the induction is on the handle, and for one handle on the length of the
     window.  After the end of the stream there is the window alone (`returns_of_ended`).

  4. **Runs** (`reads_return`).  Every state of every run is such a state, also in the middle of a
     call.
-/
import Mathlib.Order.WellFounded
import RecordFeed.Proofs.Messages.Draining
import RecordFeed.Proofs.Records.Restraint
import RecordFeed.Proofs.Sessions.Counters

namespace RecordFeed

/-! ## Handles that finish

  The assumption is about a handle alone, and about nothing that a scanner does with it.  How
  long a read takes is of no concern, only how many of them there can be. -/

namespace Reader

variable {η : Type}

/-- A read of a handle, with room for something, does not end the stream: it gives bytes, or it is
    interrupted.  The handle is then this one.  A read that ends the stream or fails leads nowhere,
    so it is no step. -/
inductive Goes (r : Reader η) : η → η → Prop where
  | data {h next : η} {free bytes : Bytes} (hroom : free ≠ [])
      (hread : (r.read h free).1 = .data bytes next) : Goes r next h
  | interrupted {h next : η} {free : Bytes} (hroom : free ≠ [])
      (hread : (r.read h free).1 = .interrupted next) : Goes r next h

/-- Whatever room it is offered, a handle gives bytes and is interrupted only so often, and then it
    ends or fails.  In other words no sequence of reads goes on for ever (`finishes_iff`). -/
def Finishes (r : Reader η) (h : η) : Prop := Acc r.Goes h

/-- No sequence of reads goes on for ever.  This is what accessibility says when it is read from the
    other end; the induction of `returns_of_finishes` needs the form of the definition. -/
theorem finishes_iff {r : Reader η} {h : η} :
    r.Finishes h ↔ ¬ ∃ handles : Nat → η, handles 0 = h ∧ ∀ n, r.Goes (handles (n + 1)) (handles n) := by
  rw [← not_acc_iff_exists_descending_chain, not_not, Finishes]

/-- A handle with a bound on what it still gives finishes. -/
theorem finishes_ofSource {ω : Type} [ByteSource ω η] (w : ω) (h : η) : (ofSource w).Finishes h := by
  have hless {next h : η} (hgoes : (ofSource w).Goes next h) :
      ByteSource.left w next < ByteSource.left w h := by
    cases hgoes with
    | data hroom hread =>
      obtain ⟨hne, -, hleft⟩ := ByteSource.read_data hread
      have hpos := List.length_pos_iff.mpr hne
      omega
    | interrupted hroom hread => exact ByteSource.read_interrupted hread
  exact Subrelation.accessible hless ((measure (ByteSource.left w)).wf.apply h)

end Reader

namespace RawScanner

/-! ## Callers

  Whoever calls may want one answer or many.  The induction is the same, so it is made for a
  caller with a state that says what is still wanted. -/

variable {η π σ : Type}

/-- The last of the answers is the first one after which nothing more is wanted. -/
def Satisfied (want : σ → ScanAnswer → Option σ) : σ → List ScanAnswer → Prop
  | _, [] => False
  | c, answer :: later =>
    match want c answer with
    | none => later = []
    | some c' => Satisfied want c' later

/-- The scanner comes to the end of the call whose answer satisfies the caller; or it asks for more
    memory than there is. -/
def Returns [SplitPolicy π] (r : Reader η) (want : σ → ScanAnswer → Option σ) (c : σ)
    (s : RawScanner η π) : Prop :=
  ∃ n, Ends s.limit (fun t entries => t.point = .between ∧ Satisfied want c (Entry.answers entries))
    (run (List.replicate n r) s)

/-- A caller that can be satisfied: it goes on only after a record, and if it ever does, then every
    record consumes something.  Both are needed: a caller that went on after an error would be
    answered with it for ever, and one that took empty records would never come to a read. -/
structure Patient (π : Type) [SplitPolicy π] (want : σ → ScanAnswer → Option σ) : Prop where
  records : ∀ {c c' : σ} {answer : ScanAnswer}, want c answer = some c' → ¬ answer.IsFinal
  consumes : ∀ {c c' : σ} {answer : ScanAnswer}, want c answer = some c' →
    ∀ {policy next : π} {window : Bytes} {atEof : Bool} {advance start stop : Nat},
      SplitPolicy.split policy window atEof = (.token advance start stop, next) → 0 < advance

/-- Nothing is wanted after an answer for good. -/
theorem Patient.want_final [SplitPolicy π] {want : σ → ScanAnswer → Option σ} (h : Patient π want)
    {answer : ScanAnswer} (hfinal : answer.IsFinal) (c : σ) : want c answer = none := by
  cases hwant : want c answer with
  | none => rfl
  | some c' => exact absurd hfinal (h.records hwant)

variable [SplitPolicy π] {r : Reader η} {want : σ → ScanAnswer → Option σ} {c : σ}
  {s t : RawScanner η π} {entries transcript : List Entry}

/-- How a caller goes on after a step: the call is not answered yet, the answer satisfies the
    caller, or it calls again.  A step answers at most one call, so these are all the ways there
    are. -/
inductive Onward (r : Reader η) (want : σ → ScanAnswer → Option σ) (c : σ) (t : RawScanner η π) :
    List ScanAnswer → Prop where
  | quiet (later : Returns r want c t) : Onward r want c t []
  | satisfied {answer : ScanAnswer} (point : t.point = .between) (enough : want c answer = none) :
      Onward r want c t [answer]
  | wanting {answer : ScanAnswer} {c' : σ} (more : want c answer = some c')
      (later : Returns r want c' t) : Onward r want c t [answer]

/-- **A scanner returns if it does so after a step.** The step itself always exists, or asks for
    more memory than there is (`step_spec`). -/
theorem Returns.of_step (hrange : s.InRange)
    (h : ∀ t entries, s.step r = .ok (t, entries) → Onward r want c t (Entry.answers entries)) :
    Returns r want c s := by
  rcases step_spec hrange r with ⟨t, entries, hstep, hkeeps⟩ | ⟨hstep, hmemory⟩
  · have honward := h t entries hstep
    generalize hanswers : Entry.answers entries = answers at honward
    cases honward with
    | quiet later =>
      -- the step is put before the run that the rest of the call takes
      obtain ⟨n, hn⟩ := later
      rw [hkeeps.limit_eq] at hn
      refine ⟨n + 1, ends_cons hstep (hn.mono fun u more hmore => ?_)⟩
      rw [Entry.answers_append, hanswers]
      exact hmore
    | @satisfied answer point enough =>
      -- one step was enough
      refine ⟨1, ends_cons hstep ⟨point, ?_⟩⟩
      rw [List.append_nil, hanswers, Satisfied, enough]
    | wanting more later =>
      obtain ⟨n, hn⟩ := later
      rw [hkeeps.limit_eq] at hn
      refine ⟨n + 1, ends_cons hstep (hn.mono fun u more' hmore => ?_)⟩
      rw [Entry.answers_append, hanswers, List.singleton_append, Satisfied, more]
      exact hmore
  · exact ⟨1, ends_of_outOfMemory [] hstep hmemory⟩

/-! ## The invariant

  What is known of every state of a run, so that a state in the middle of a call can be
  returned from as well. -/

/-- What every state of a run is like: the buffer in range, a reason for the place in the loop, and
    only so many reads to come. -/
structure Able (r : Reader η) (s : RawScanner η π) : Prop where
  inRange : s.InRange
  held : ∃ transcript, s.Held transcript
  finishes : (s.atEof = true ∨ s.done = true) ∨ r.Finishes s.handle

omit [SplitPolicy π] in
/-- There is room where a scanner reads. -/
theorem Able.room (h : Able r s) (hpoint : s.point = .reading) : s.free ≠ [] := by
  obtain ⟨transcript, hheld⟩ := h.held
  have hplaced := hheld.placed
  simp only [Placed, hpoint] at hplaced
  exact hplaced.1

/-- **Every step keeps the invariant.** -/
theorem Able.step (h : Able r s) (hstep : s.step r = .ok (t, entries)) : Able r t := by
  obtain ⟨transcript, hheld⟩ := h.held
  refine ⟨(h.inRange.of_step hstep).inRange, ⟨_, hheld.step h.inRange hstep⟩, ?_⟩
  -- three of the four places leave the handle and the end of the stream as they were
  have hkept {t : RawScanner η π} (hEof : t.atEof = s.atEof) (hdone : s.done = true → t.done = true)
      (hhandle : t.handle = s.handle) : (t.atEof = true ∨ t.done = true) ∨ r.Finishes t.handle := by
    rw [hEof, hhandle]
    exact h.finishes.imp_left (Or.imp_right hdone)
  cases stepped_of_step h.inRange hstep with
  | begins => exact hkept rfl id rfl
  | asks hpoint hasked =>
    cases hasked with
    | ended | closed => exact hkept rfl (fun _ => rfl) rfl
    | waits | more | cut => exact hkept rfl id rfl
  | compacts hpoint hmoved =>
    have hsame := hmoved.same
    exact hkept (by rw [hsame]) (by rw [hsame]; exact id) (by rw [hsame])
  | grows hpoint hgrown =>
    cases hgrown with
    | full => exact hkept rfl (fun _ => rfl) rfl
    | room hreading hroom hwindow hdone hEof hpolicy hhandle =>
      exact hkept hEof (by rw [hdone]; exact id) hhandle
  | reads hpoint hled =>
    have hroom := h.room hpoint
    -- a read that goes on has passed to a handle that finishes because the one before did
    have hnext {next : η} (hgoes : r.Goes next s.handle) (hEof : t.atEof = s.atEof)
        (hdone : t.done = s.done) (hhandle : t.handle = next) :
        (t.atEof = true ∨ t.done = true) ∨ r.Finishes t.handle := by
      rw [hEof, hdone, hhandle]
      exact h.finishes.imp_right fun hfinishes => hfinishes.inv hgoes
    generalize hread : (r.read s.handle s.free).1 = outcome at hled
    cases hled with
    | interrupted hreading hhandle hlength hwindow hpolicy hdone hEof =>
      exact hnext (.interrupted hroom hread) hEof hdone hhandle
    | data hasking hhandle hwindow hpolicy hdone hEof =>
      exact hnext (.data hroom hread) hEof hdone hhandle
    | ended hasking hhandle hwindow hpolicy hdone hEof => exact Or.inl (Or.inl hEof)
    | failed hbetween hhandle hwindow hpolicy hdone => exact Or.inl (Or.inr hdone)

/-! ## Returning

  One lemma for each place in the loop, put in the order in which a call passes them.  Each of
  them hands on to the next, and the last to a scanner that has less before it. -/

section Returning

variable (hpatient : Patient π want)
include hpatient

/-- A scanner that turns to its policy returns, if it does so where the policy waits for more
    bytes, and where a record has been cut that is not enough. -/
theorem returns_of_asking (h : Able r s) (hpoint : s.point = .asking)
    (hwaits : s.done = false → s.atEof = false → ∀ t : RawScanner η π, Able r t →
      t.point = .compacting → t.handle = s.handle → ∀ c, Returns r want c t)
    (hcuts : s.done = false → ∀ t : RawScanner η π, Able r t → t.handle = s.handle →
      t.atEof = s.atEof → t.window.length < s.window.length → ∀ c, Returns r want c t) (c : σ) :
    Returns r want c s := by
  refine Returns.of_step h.inRange fun t entries hstep => ?_
  have hable := h.step hstep
  cases stepped_of_step h.inRange hstep with
  | begins hother | compacts hother | grows hother | reads hother => simp [hpoint] at hother
  | asks _ hasked =>
    cases hasked with
    | ended hdone =>
      have hfinal : ScanAnswer.IsFinal (.ok none) := trivial
      exact .satisfied rfl (hpatient.want_final hfinal c)
    | waits hrunning hopen hempty => exact .quiet (hwaits hrunning hopen _ hable rfl rfl c)
    | more hrunning hopen hdecided => exact .quiet (hwaits hrunning hopen _ hable rfl rfl c)
    | closed hrunning hdecided hunfit hfinal => exact .satisfied rfl (hpatient.want_final hfinal c)
    | @cut policy advance start stop hrunning hdecided hfits =>
      cases hwant : want c (.ok (some ((s.window.take stop).drop start))) with
      | none => exact .satisfied rfl hwant
      | some c' =>
        -- what is left of the window is shorter
        refine .wanting hwant (hcuts hrunning _ hable rfl rfl ?_ c')
        have hpos := hpatient.consumes hwant hdecided
        have hle := hfits.1
        have hrest : ({ s with policy, start := s.start + advance, point := .between } :
            RawScanner η π).window = s.window.drop advance := by
          rw [window, window, List.drop_drop]
        rw [hrest, List.length_drop]
        omega

omit hpatient in
/-- A call begins with turning to the policy. -/
theorem returns_of_between (h : Able r s) (hpoint : s.point = .between)
    (hasking : Able r { s with point := .asking } → ∀ c,
      Returns r want c ({ s with point := .asking } : RawScanner η π)) (c : σ) :
    Returns r want c s := by
  have hbegin : s.step r = .ok ({ s with point := .asking }, []) := by rw [step, hpoint]
  refine Returns.of_step h.inRange fun t entries hstep => ?_
  obtain ⟨rfl, rfl⟩ := Prod.mk.inj (Except.ok.inj (hbegin.symm.trans hstep))
  exact .quiet (hasking (h.step hbegin) c)

/-- **After the end of the stream** the window is all there is.  By induction on its length.  No
    read follows any more, and each record that the caller does not stop at makes the window
    shorter. -/
theorem returns_of_ended (h : Able r s) (hended : s.atEof = true ∨ s.done = true) (c : σ) :
    Returns r want c s := by
  induction hn : s.window.length using Nat.strongRecOn generalizing s c with
  | ind n ih =>
    -- `asking` is where the induction turns; a scanner between two calls is one step before it
    have hasking {t : RawScanner η π} (ht : Able r t) (hpoint : t.point = .asking)
        (hended : t.atEof = true ∨ t.done = true) (hlength : t.window.length = n) (c : σ) :
        Returns r want c t := by
      refine returns_of_asking hpatient ht hpoint ?_ ?_ c
      · intro hrunning hopen
        simp [hrunning, hopen] at hended
      · intro hrunning u hu hhandle hEof hless c'
        have hclosed : u.atEof = true := by simpa [hEof, hrunning] using hended
        exact ih _ (hlength ▸ hless) hu (Or.inl hclosed) c' rfl
    obtain ⟨transcript, hheld⟩ := h.held
    -- after the end a scanner neither makes room nor reads
    rcases hheld.point_of hended with hpoint | hpoint
    · exact returns_of_between h hpoint (fun hnext => hasking hnext rfl hended hn) c
    · exact hasking h hpoint hended hn c

/-- A read moves on in the sequence of reads, ends the stream or settles the call. -/
theorem returns_of_reading (h : Able r s) (hpoint : s.point = .reading)
    (hnext : ∀ next, r.Goes next s.handle → ∀ t : RawScanner η π, Able r t → t.handle = next →
      ∀ c, Returns r want c t) (c : σ) : Returns r want c s := by
  have hroom := h.room hpoint
  refine Returns.of_step h.inRange fun t entries hstep => ?_
  have hable := h.step hstep
  cases stepped_of_step h.inRange hstep with
  | begins hother | asks hother | compacts hother | grows hother => simp [hpoint] at hother
  | reads _ hled =>
    generalize hread : (r.read s.handle s.free).1 = outcome at hled
    cases hled with
    | interrupted hreading hhandle =>
      exact .quiet (hnext _ (.interrupted hroom hread) t hable hhandle c)
    | data hasking hhandle => exact .quiet (hnext _ (.data hroom hread) t hable hhandle c)
    | ended hasking hhandle hwindow hpolicy hdone hEof =>
      exact .quiet (returns_of_ended hpatient hable (Or.inl hEof) c)
    | @failed error next hbetween =>
      have hfinal : ScanAnswer.IsFinal (.error (.io error)) := trivial
      exact .satisfied hbetween (hpatient.want_final hfinal c)

/-- Making room refuses for good, or leads to a read of the same handle. -/
theorem returns_of_growing (h : Able r s) (hpoint : s.point = .growing)
    (hreading : ∀ t : RawScanner η π, Able r t → t.point = .reading → t.handle = s.handle →
      ∀ c, Returns r want c t) (c : σ) : Returns r want c s := by
  refine Returns.of_step h.inRange fun t entries hstep => ?_
  have hable := h.step hstep
  cases stepped_of_step h.inRange hstep with
  | begins hother | asks hother | compacts hother | reads hother => simp [hpoint] at hother
  | grows _ hgrown =>
    cases hgrown with
    | full =>
      have hfinal : ScanAnswer.IsFinal (.error (.tokenTooLarge s.limit)) := trivial
      exact .satisfied rfl (hpatient.want_final hfinal c)
    | room hpoint' hroom hwindow hdone hEof hpolicy hhandle =>
      exact .quiet (hreading t hable hpoint' hhandle c)

omit hpatient in
/-- Moving the window leads to making room, with the same handle. -/
theorem returns_of_compacting (h : Able r s) (hpoint : s.point = .compacting)
    (hgrowing : ∀ t : RawScanner η π, Able r t → t.point = .growing → t.handle = s.handle →
      ∀ c, Returns r want c t) (c : σ) : Returns r want c s := by
  refine Returns.of_step h.inRange fun t entries hstep => ?_
  have hable := h.step hstep
  cases stepped_of_step h.inRange hstep with
  | begins hother | asks hother | grows hother | reads hother => simp [hpoint] at hother
  | compacts _ hmoved =>
    have hsame := hmoved.same
    exact .quiet (hgrowing t hable (by rw [hsame]) (by rw [hsame]) c)

/-- **A scanner whose handle finishes returns.** By induction on the sequence of reads, and for one
    handle on the length of the window.  These are the two parts of a lexicographic order. -/
theorem returns_of_finishes {h : η} (hfinishes : r.Finishes h) (hs : Able r s) (hhandle : s.handle = h)
    (c : σ) : Returns r want c s := by
  induction hfinishes generalizing s c with
  | intro h _ ihHandle =>
    -- what reads and goes on has another handle
    have hreading (t : RawScanner η π) (ht : Able r t) (hpoint : t.point = .reading)
        (hsame : t.handle = h) (c : σ) : Returns r want c t :=
      returns_of_reading hpatient ht hpoint
        (fun next hgoes u hu hnext c => ihHandle next (hsame ▸ hgoes) hu hnext c) c
    have hgrowing (t : RawScanner η π) (ht : Able r t) (hpoint : t.point = .growing)
        (hsame : t.handle = h) (c : σ) : Returns r want c t :=
      returns_of_growing hpatient ht hpoint
        (fun u hu hpoint' hsame' => hreading u hu hpoint' (hsame'.trans hsame)) c
    have hcompacting (t : RawScanner η π) (ht : Able r t) (hpoint : t.point = .compacting)
        (hsame : t.handle = h) (c : σ) : Returns r want c t :=
      returns_of_compacting ht hpoint
        (fun u hu hpoint' hsame' => hgrowing u hu hpoint' (hsame'.trans hsame)) c
    -- and what does not read has a shorter window
    induction hn : s.window.length using Nat.strongRecOn generalizing s c with
    | ind n ihWindow =>
      have hasking {t : RawScanner η π} (ht : Able r t) (hpoint : t.point = .asking)
          (hsame : t.handle = h) (hlength : t.window.length = n) (c : σ) : Returns r want c t := by
        refine returns_of_asking hpatient ht hpoint ?_ ?_ c
        · exact fun _ _ u hu hpoint' hsame' => hcompacting u hu hpoint' (hsame'.trans hsame)
        · exact fun _ u hu hsame' _ hless c' =>
            ihWindow _ (hlength ▸ hless) hu (hsame'.trans hsame) c' rfl
      cases hpoint : s.point with
      | between =>
        exact returns_of_between hs hpoint (fun hnext => hasking hnext rfl hhandle hn) c
      | asking => exact hasking hs hpoint hhandle hn c
      | compacting => exact hcompacting s hs hpoint hhandle c
      | growing => exact hgrowing s hs hpoint hhandle c
      | reading => exact hreading s hs hpoint hhandle c

/-- **Every state of a run returns.** Either the end was seen, and the window decides, or the handle
    still finishes. -/
theorem Able.returns (h : Able r s) (c : σ) : Returns r want c s := by
  rcases h.finishes with hended | hfinishes
  · exact returns_of_ended hpatient h hended c
  · exact returns_of_finishes hpatient hfinishes h rfl c

end Returning

/-! ## Runs

  The states from which calls return are not only those at the beginning of a run. -/

omit [SplitPolicy π] in
/-- A new scanner over a handle that finishes.  This is where a run begins. -/
theorem able_fresh {handle : η} (hfinishes : r.Finishes handle) (policy : π) (limit : Nat) :
    Able r (fresh handle policy limit) :=
  ⟨inRange_fresh handle policy limit, ⟨[], held_fresh handle policy limit⟩, Or.inr hfinishes⟩

/-- **Every run keeps the invariant**, and the limit. -/
theorem Able.run (h : Able r s) {n : Nat} (hrun : run (List.replicate n r) s = .ok (t, transcript)) :
    Able r t ∧ t.limit = s.limit := by
  have hkept := run_keeps_of_mem (fun t _ => Able r t ∧ t.limit = s.limit) (List.replicate n r)
    (fun r' hr' hrange hs hstep => by
      obtain rfl := List.eq_of_mem_replicate hr'
      exact ⟨hs.1.step hstep, (hrange.of_step hstep).limit_eq.trans hs.2⟩)
    h.inRange [] ⟨h, rfl⟩
  rw [hrun] at hkept
  exact hkept.2

end RawScanner

/-! ## Reading a message

  A read of a message is a caller as well.  It is satisfied when its message is complete, and
  each record that is not enough has consumed a byte. -/

/-- What the reading of a message makes of an answer: it goes on after a record that does not
    complete the message. -/
def Assembly.want (multipart : Bool) (a : Assembly) : ScanAnswer → Option Assembly
  | .ok (some record) =>
    if (a.take multipart record).2 then none else some (a.take multipart record).1
  | .ok none | .error _ => none

namespace RawScanner

variable {ω η : Type} {multipart : Bool} {a : Assembly}

/-- A call of the scanner takes one answer. -/
theorem patient_once (π : Type) [SplitPolicy π] :
    Patient π fun (_ : Unit) (_ : ScanAnswer) => (none : Option Unit) :=
  ⟨fun h => by simp at h, fun h => by simp at h⟩

/-- A delimiter cuts off at least itself, or the last bytes of the stream. -/
theorem patient_message (multipart : Bool) : Patient Delimiter (Assembly.want multipart) where
  records {a a' answer} h := by
    match answer, h with
    | .ok (some record), _ => exact id
  -- what a delimiter cuts off is never empty (`Delimiter.split_token`)
  consumes _ := by
    intro policy next window atEof advance start stop hsplit
    rw [Delimiter.policy_split] at hsplit
    exact (Delimiter.split_token (Prod.mk.inj hsplit).1).2.2

/-- A call that satisfies the reading of a message is its last one. -/
theorem satisfied_once [ByteSource ω η] {w : ω} {scanner : Scanner η Delimiter}
    (h : a.want multipart (scanner.nextToken w).answer = none) :
    Satisfied (Assembly.want multipart) a (scanner.calls [w]).answer := by
  show Satisfied (Assembly.want multipart) a [(scanner.nextToken w).answer]
  rw [Satisfied, h]

/-- **Gathering a message makes just the calls that it wants.**  By induction on the records. -/
theorem gather_calls [ByteSource ω η] (w : ω) (multipart : Bool) (scanner : Scanner η Delimiter)
    (a : Assembly) :
    ∃ n, Satisfied (Assembly.want multipart) a (scanner.calls (List.replicate n w)).answer ∧
      (scanner.calls (List.replicate n w)).next = (gather w multipart scanner a).next.1 ∧
      (scanner.calls (List.replicate n w)).events = (gather w multipart scanner a).events := by
  fun_induction gather w multipart scanner a with
  | case1 scanner a reply error hanswer =>
    have hwant : a.want multipart (scanner.nextToken w).answer = none := by
      rw [show (scanner.nextToken w).answer = .error error from hanswer, Assembly.want]
    exact ⟨1, satisfied_once hwant, rfl, List.append_nil _⟩
  | case2 scanner a reply hanswer =>
    have hwant : a.want multipart (scanner.nextToken w).answer = none := by
      rw [show (scanner.nextToken w).answer = .ok none from hanswer, Assembly.want]
    exact ⟨1, satisfied_once hwant, rfl, List.append_nil _⟩
  | case3 scanner a reply record hanswer taken htaken =>
    have hwant : a.want multipart (scanner.nextToken w).answer = none := by
      rw [show (scanner.nextToken w).answer = .ok (some record) from hanswer, Assembly.want]
      exact if_pos htaken
    exact ⟨1, satisfied_once hwant, rfl, List.append_nil _⟩
  | case4 scanner a reply record hanswer taken htaken ih =>
    obtain ⟨n, hsatisfied, hnext, hevents⟩ := ih
    have hwant : a.want multipart (scanner.nextToken w).answer = some taken.1 := by
      rw [show (scanner.nextToken w).answer = .ok (some record) from hanswer, Assembly.want]
      exact if_neg htaken
    -- the record does not complete the message: one call more than the rest makes
    refine ⟨n + 1, ?_, hnext, congrArg (reply.events ++ ·) hevents⟩
    show Satisfied (Assembly.want multipart) a
      ((scanner.nextToken w).answer :: (reply.next.calls (List.replicate n w)).answer)
    rw [Satisfied, hwant]
    exact hsatisfied

end RawScanner

/-- What is done at the end of a read comes after the calls. -/
theorem Feed.settle_events {ω φ η : Type} (f : Feed ω φ η) (message : Message) (ending : Ending)
    (events : List Event) : events <+: (f.settle message ending events).events := by
  cases ending with
  | complete => exact List.prefix_rfl
  | drained | failed error => exact (List.prefix_append _ _).trans (List.prefix_append _ _)

namespace RawScanner

/-- A caller of the scanner is satisfied with one answer.  There is then exactly one, which is how
    the first part of `reads_return` puts it. -/
theorem exists_answer_of_satisfied {answers : List ScanAnswer}
    (h : Satisfied (fun (_ : Unit) (_ : ScanAnswer) => (none : Option Unit)) () answers) :
    ∃ answer, answers = [answer] := by
  match answers, h with
  | [answer], _ => exact ⟨answer, rfl⟩

/-- **Every call returns.**  A handle is only so often interrupted and gives only so many bytes
    before it ends or fails.  Wherever a run of any number of steps over it has come to, also within
    a call:

    * for every policy, whatever it decides and on whatever this depends, and for every limit, the
      call is answered after finitely many steps;
    * under the settings of a feed, in both modes and with any message open, so is every call that
      the reading of the message still wants.

    Only a buffer that does not fit into memory keeps a call from this, and then the limit allows
    for more than there is.

    A read of a feed that holds no stream is answered at once.  One of a feed that holds a stream
    makes the calls that the reading of a message wants, and no other ones. -/
theorem reads_return {η : Type} {r : Reader η} {handle : η} (hfinishes : r.Finishes handle) :
    (∀ (π : Type) [SplitPolicy π] (policy : π) (limit n : Nat) (s : RawScanner η π)
      (transcript : List Entry),
      run (List.replicate n r) (fresh handle policy limit) = .ok (s, transcript) →
        ∃ m, Ends limit
          (fun t entries => t.point = .between ∧ ∃ answer, Entry.answers entries = [answer])
          (run (List.replicate m r) s)) ∧
    (∀ (settings : Settings) (n : Nat) (s : RawScanner η Delimiter) (transcript : List Entry),
      run (List.replicate n r)
          (fresh handle ⟨settings.delimiterBytes⟩ settings.maxTokenSize) = .ok (s, transcript) →
        ∀ a : Assembly, ∃ m, Ends settings.maxTokenSize
          (fun t entries => t.point = .between ∧
            Satisfied (Assembly.want settings.multipart) a (Entry.answers entries))
          (run (List.replicate m r) s)) ∧
    ∀ (ω φ : Type) [ByteSource ω η] (w : ω) (f : Feed ω φ η),
      (f.link.isConnected = false → f.read w = { answer := .error .notConnected, next := f }) ∧
      ∀ scanner : Scanner η Delimiter, f.link = .connected scanner →
        ∃ m, Satisfied (Assembly.want f.settings.multipart) { arena := f.arena }
            (scanner.calls (List.replicate m w)).answer ∧
          (scanner.calls (List.replicate m w)).events <+: (f.read w).events := by
  refine ⟨?_, ?_, ?_⟩
  · intro π _ policy limit n s transcript hrun
    -- the run may have stopped anywhere, also between a read and the next question
    obtain ⟨hable, hlimit⟩ := (able_fresh hfinishes policy limit).run hrun
    obtain ⟨m, hm⟩ := hable.returns (patient_once π) ()
    rw [show s.limit = limit from hlimit] at hm
    exact ⟨m, hm.mono fun t entries h => ⟨h.1, exists_answer_of_satisfied h.2⟩⟩
  · intro settings n s transcript hrun a
    obtain ⟨hable, hlimit⟩ := (able_fresh hfinishes _ settings.maxTokenSize).run hrun
    obtain ⟨m, hm⟩ := hable.returns (patient_message settings.multipart) a
    rw [show s.limit = settings.maxTokenSize from hlimit] at hm
    exact ⟨m, hm⟩
  · intro ω φ _ w f
    refine ⟨fun hfree => Feed.read_not_connected hfree, fun scanner hlink => ?_⟩
    -- the events of the read begin with those of the calls, and nothing is called after them
    obtain ⟨m, hsatisfied, -, hevents⟩ :=
      gather_calls w f.settings.multipart scanner { arena := f.arena }
    refine ⟨m, hsatisfied, ?_⟩
    rw [hevents, Feed.read_connected hlink]
    exact Feed.settle_events _ _ _ _

/-- A handle that is interrupted, and that fails in the middle of a record. -/
def interrupted : Script :=
  ⟨[.data [97, 10, 10], .interrupts, .data [98, 10, 99], .fails (.bare .timedOut)]⟩

/-- The reading of a multipart message over this script, with room for four bytes and an arena of
    eight. -/
theorem reads_return_interrupted :
    (Reader.ofSource (⟨0⟩ : Switch)).Finishes interrupted ∧
    ∃ m, Ends 4
      (fun t entries => t.point = .between ∧
        Satisfied (Assembly.want true) { arena := Arena.ofCapacity 8 } (Entry.answers entries))
      (run (List.replicate m (Reader.ofSource (⟨0⟩ : Switch)))
        (fresh interrupted (Delimiter.mk [10]) 4)) := by
  have hfinishes := Reader.finishes_ofSource (⟨0⟩ : Switch) interrupted
  obtain ⟨-, hmessages, -⟩ := reads_return hfinishes
  exact ⟨hfinishes, hmessages { maxTokenSize := 4, multipart := true } 0 _ [] rfl _⟩

end RawScanner

end RecordFeed
