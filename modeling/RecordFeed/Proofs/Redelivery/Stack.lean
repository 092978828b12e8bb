/-
  Redelivery over redelivery.

  A redelivery passes every acknowledgement inwards, and each level has its own account of what is
  out for delivery.  A message whose delivery failed waits in the queues of all levels that it came
  through.  It is then delivered again from the outermost of them, which the inner levels do not
  notice: what settles this delivery finds nothing pending inside, and the message goes on waiting
  there.

  1. **One level** (`Redelivery.outstanding_subperm`).  What a redelivery keeps it was given, each
     message as often as it was given.  So a message that is pending does not wait as well.

  2. **Any number of levels** (`Stack`).  What is read after all was settled was waiting or is new
     from the feed at the bottom, which gives no message twice if the records are all different.

  3. So a message that was delivered and then acknowledged is read again just when it waits at some
     level (`returns_iff_waits`).  With one level it never does; with two it may
     (`acknowledged_returns`).
-/
import Mathlib.Data.List.Perm.Subperm
import RecordFeed.Proofs.Messages.InOrder
import RecordFeed.Proofs.Redelivery.Levels

namespace RecordFeed

/-! ## One level

  Here the messages are counted: each is kept at most as often as it was given. -/

namespace Redelivery

variable {ω ρ : Type} [MessageReader ω ρ]

/-- A redelivery over a reader is one level. -/
theorem layered : Layered ω (Redelivery.inner (ρ := ρ)) Redelivery.queue outstanding := by
  simpa only [List.append_nil] using (Layered.bottom (ω := ω) (ρ := ρ)).level

/-- As long as nothing is acknowledged, all that is read is pending.  By induction on the calls; a
    read adds the message wherever it came from. -/
theorem pending_of_reads {calls : List (Call ω)}
    (h : ∀ call ∈ calls, call.acknowledges = false) (r : Redelivery ρ) :
    (run calls r).next.pending = r.pending ++ messagesRead calls r := by
  induction calls generalizing r with
  | nil => exact (List.append_nil _).symm
  | cons call later ih =>
    obtain ⟨hcall, hlater⟩ := List.forall_mem_cons.mp h
    -- whatever is read becomes pending, and no other request here touches it
    have hstep : (call.ask r).next.pending =
        r.pending ++ (call.ask r).answer.message?.toList := by
      obtain ⟨w, request⟩ := call
      obtain ⟨inner, pending, queue⟩ := r
      cases request with
      | connect | waitForClose milliseconds => exact (List.append_nil _).symm
      | acknowledge failure => simp [Call.acknowledges] at hcall
      | read =>
        cases queue with
        | cons first queue => rfl
        | nil =>
          rcases hreply : MessageReader.read w inner with ⟨answer, next, events⟩
          cases answer <;> simp [Call.ask, read, hreply, Reply.map, Answer.message?]
    rw [run_cons_next, ih hlater, hstep, messagesRead_cons, List.append_assoc]

/-- A call keeps what was kept and what it brings in, and nothing more often.  `Subperm` counts
    occurrences, which `Layered` does not; so this is shown of one level only. -/
theorem outstanding_of_ask (call : Call ω) (r : Redelivery ρ) :
    (call.ask r).next.outstanding.Subperm
      (r.outstanding ++ call.brings Redelivery.inner Redelivery.queue r) := by
  obtain ⟨w, request⟩ := call
  obtain ⟨inner, pending, queue⟩ := r
  cases request with
  | connect | waitForClose milliseconds => exact (List.sublist_append_left _ _).subperm
  | acknowledge failure =>
    refine List.Subperm.trans ?_ (List.sublist_append_left _ _).subperm
    cases failure with
    | none => exact (List.sublist_append_right pending queue).subperm
    | some reason =>
      show (queue ++ pending).Subperm (pending ++ queue)
      exact List.perm_append_comm.subperm
  | read =>
    cases queue with
    | cons first queue =>
      show (pending ++ [first] ++ queue).Subperm (pending ++ first :: queue ++ [])
      rw [List.append_nil, List.append_cons pending first queue]
    | nil =>
      rcases hreply : MessageReader.read w inner with ⟨answer, next, events⟩
      cases answer <;>
        simp [Call.ask, Call.brings, Call.reaches, read, hreply, Reply.map, Answer.message?,
          outstanding, List.Subperm.refl]

/-- The same of a run.  By induction on the calls. -/
theorem outstanding_subperm (calls : List (Call ω)) (r : Redelivery ρ) :
    (run calls r).next.outstanding.Subperm
      (r.outstanding ++ messagesRead (passed Redelivery.queue calls r) r.inner) := by
  induction calls generalizing r with
  | nil => exact (List.sublist_append_left _ _).subperm
  | cons call later ih =>
    rw [Layered.messagesRead_passed_cons call later r layered, ← List.append_assoc]
    refine (ih _).trans ?_
    exact (List.subperm_append_right _).mpr (outstanding_of_ask call r)

/-- A message that was read and not yet acknowledged does not wait, if the bottom gives no message
    twice.  It is pending, and what is outstanding has no message twice. -/
theorem not_mem_queue_of_read {before since : List (Call ω)} {r : Redelivery ρ} {message : Message}
    (hsince : ∀ call ∈ since, call.acknowledges = false) (hempty : r.outstanding = [])
    (hnodup : (messagesRead (passed Redelivery.queue (before ++ since) r) r.inner).Nodup)
    (hread : message ∈ messagesRead since (run before r).next) :
    message ∉ (run (before ++ since) r).next.queue := by
  have hkept := outstanding_subperm (before ++ since) r
  rw [hempty, List.nil_append] at hkept
  obtain ⟨l, hperm, hsublist⟩ := hkept
  -- kept no more often than given, and given once
  have hdistinct : (run (before ++ since) r).next.outstanding.Nodup :=
    hperm.nodup (hsublist.nodup hnodup)
  have hpending : message ∈ (run (before ++ since) r).next.pending := by
    rw [run_append_next, pending_of_reads hsince]
    exact List.mem_append_right _ hread
  intro hqueue
  exact (List.nodup_append.mp hdistinct).2.2 message hpending message hqueue rfl

end Redelivery

/-! ## Any number of levels

  With more than one level a message may be kept several times, and this is where one level
  differs. -/

/-- So many redeliveries over a reader, each of them over the next.  Every level is a reader like
    the others, so the definition is by recursion on their number. -/
def Stack (ρ : Type) : Nat → Type
  | 0 => ρ
  | depth + 1 => Redelivery (Stack ρ depth)

namespace Stack

variable {ω ρ : Type}

instance reader [MessageReader ω ρ] : (depth : Nat) → MessageReader ω (Stack ρ depth)
  | 0 => inferInstanceAs (MessageReader ω ρ)
  | depth + 1 =>
    let _ : MessageReader ω (Stack ρ depth) := reader depth
    inferInstanceAs (MessageReader ω (Redelivery (Stack ρ depth)))

/-- Redeliveries that keep nothing yet. -/
def above : (depth : Nat) → ρ → Stack ρ depth
  | 0, r => r
  | depth + 1, r => ({ inner := above depth r } : Redelivery (Stack ρ depth))

/-- The reader at the bottom. -/
def base : (depth : Nat) → Stack ρ depth → ρ
  | 0, r => r
  | depth + 1, s => base depth (Redelivery.inner s)

/-- The messages that wait at some level, the next one to be read first. -/
def waiting : (depth : Nat) → Stack ρ depth → List Message
  | 0, _ => []
  | depth + 1, s => Redelivery.queue s ++ waiting depth (Redelivery.inner s)

/-- The messages that some level keeps, as often as it keeps them. -/
def held : (depth : Nat) → Stack ρ depth → List Message
  | 0, _ => []
  | depth + 1, s => Redelivery.outstanding s ++ held depth (Redelivery.inner s)

/-- A stack is made of levels.  By recursion on their number. -/
theorem layered [MessageReader ω ρ] :
    (depth : Nat) → Layered ω (base (ρ := ρ) depth) (waiting depth) (held depth)
  | 0 => Layered.bottom
  | depth + 1 => (layered depth).level

/-- The reader that a stack was built over is the one at its bottom. -/
@[simp] theorem base_above (depth : Nat) (r : ρ) : base depth (above depth r) = r := by
  induction depth with
  | zero => rfl
  | succ depth ih => exact ih

/-- A stack that was just built keeps nothing. -/
@[simp] theorem held_above (depth : Nat) (r : ρ) : held depth (above depth r) = [] := by
  induction depth with
  | zero => rfl
  | succ depth ih => exact ih

/-- **What comes again after it was settled.**  Redeliveries stand over a feed, any number of
    them one over another, and the records of all streams that are not blank are different.
    After any calls, messages are read and then all of them are acknowledged.  One of these
    messages is read again later, by some calls, just when it waits at some level.  If there is
    at most one level it does not wait, so that it never comes again. -/
theorem returns_iff_waits {offers : Offers} {unblock : Switch → Switch} {settings : Settings}
    {f : Feed Switch Offers Script} (hmake : Feed.make offers unblock settings = .ok f)
    (hdistinct : (offers.streams.flatMap fun stream => (stream.scan settings).carried).Nodup)
    (depth : Nat) {before since : List (Call Switch)}
    (hsince : ∀ call ∈ since, call.acknowledges = false)
    (hquiet : ∀ call ∈ before ++ since, call.surroundings.thrown = 0) {w : Switch}
    (hw : w.thrown = 0) :
    let s := (run (before ++ since) (above depth f)).next
    let settled := (MessageReader.acknowledge w none s).next
    ∀ message ∈ messagesRead since (run before (above depth f)).next,
      ((∃ later : List (Call Switch), (∀ call ∈ later, call.surroundings.thrown = 0) ∧
        message.payloads ∈ (messagesRead later settled).map Message.payloads) ↔
          message ∈ waiting depth s) ∧
      (depth ≤ 1 → message ∉ waiting depth s) := by
  intro s settled message hdelivered
  have hlevels : Layered Switch (base (ρ := Feed Switch Offers Script) depth) (waiting depth)
    (held depth) := layered depth
  obtain ⟨hbase, hheld, hread⟩ := hlevels.run_spec (before ++ since) (above depth f)
  simp only [base_above, held_above, List.nil_append] at hbase hheld hread
  -- the messages that the feed at the bottom has given so far
  generalize hgiven : messagesRead (passed (waiting depth) (before ++ since) (above depth f)) f =
    given at hheld hread
  have hmessage : message ∈ given := by
    refine hread ?_
    rw [messagesRead_append]
    exact List.mem_append_right _ hdelivered
  have hwaiting : waiting depth s ⊆ given := List.Subset.trans (hlevels.waiting_subset s) hheld
  -- it gives no message twice
  have hnodup (later : List (Call Switch))
      (hlater : ∀ call ∈ later, call.surroundings.thrown = 0) :
      ((given ++ messagesRead (passed (waiting depth) (⟨w, .acknowledge none⟩ :: later) s)
        (base depth s)).map Message.payloads).Nodup := by
    -- the reads before and after the settling are one run of the feed at the bottom
    have hall : given ++ messagesRead (passed (waiting depth) (⟨w, .acknowledge none⟩ :: later) s)
        (base depth s) = messagesRead (passed (waiting depth)
          (before ++ since ++ ⟨w, .acknowledge none⟩ :: later) (above depth f)) f := by
      rw [passed_append, messagesRead_append, hgiven, hbase]
    have hquietly : ∀ call ∈ passed (waiting depth)
        (before ++ since ++ ⟨w, .acknowledge none⟩ :: later) (above depth f),
          call.surroundings.thrown = 0 := by
      intro call hcall
      rcases List.mem_append.mp ((passed_sublist _ _ _).subset hcall) with hfirst | hrest
      · exact hquiet call hfirst
      · rcases List.mem_cons.mp hrest with rfl | hmem
        · exact hw
        · exact hlater call hmem
    obtain ⟨hfactory, hsettings⟩ := Feed.of_make hmake
    have hsublist := Feed.messagesRead_sublist hquietly (Feed.link_of_make hmake)
    rw [hfactory, hsettings] at hsublist
    rw [hall]
    exact hsublist.nodup (Feed.messages_nodup hdistinct)
  refine ⟨⟨?_, fun hwaits => ?_⟩, fun hdepth hwaits => ?_⟩
  · rintro ⟨later, hlater, hreturns⟩
    obtain ⟨again, hagain, hsame⟩ := List.mem_map.mp hreturns
    have hdifferent := hnodup later hlater
    rcases List.mem_append.mp (hlevels.messagesRead_settled w s later hagain) with hwaits | hfresh
    · -- it waits, and it is the same message
      rw [List.map_append] at hdifferent
      have hunique := (List.nodup_append.mp hdifferent).1
      rwa [← List.inj_on_of_nodup_map hunique (hwaiting hwaits) hmessage hsame]
    · -- it would come from the bottom a second time
      rw [List.map_append] at hdifferent
      exact absurd hsame.symm ((List.nodup_append.mp hdifferent).2.2 _
        (List.mem_map_of_mem hmessage) _ (List.mem_map_of_mem hfresh))
  · have hstays : waiting depth settled = waiting depth s := (hlevels.settle w s).1
    -- it waits, so as many reads as there are messages waiting will come to it
    refine ⟨List.replicate (waiting depth settled).length ⟨w, .read⟩, fun call hcall => ?_, ?_⟩
    · rw [List.eq_of_mem_replicate hcall]
      exact hw
    · rw [hlevels.messagesRead_waiting, hstays]
      exact List.mem_map_of_mem hwaits
  · rcases Nat.le_one_iff_eq_zero_or_eq_one.mp hdepth with rfl | rfl
    · -- without a level there is no queue
      simp [waiting] at hwaits
    · have hqueue : waiting (ρ := Feed Switch Offers Script) 1 = Redelivery.queue :=
        funext fun r => List.append_nil (Redelivery.queue r)
      have hunique : given.Nodup := by
        have hdifferent := hnodup [] (by simp)
        rw [List.map_append] at hdifferent
        exact (List.nodup_append.mp hdifferent).1.of_map _
      rw [hqueue] at hgiven hwaits
      refine Redelivery.not_mem_queue_of_read (r := { inner := f }) hsince rfl ?_ hdelivered hwaits
      rw [← hgiven] at hunique
      exact hunique

/-- A stream of one record. -/
def oneRecord : Offers := ⟨[.stream ⟨[.data [97, 10]]⟩]⟩

/-- A feed over it. -/
def overOneRecord : Feed Switch Offers Script :=
  { factory := oneRecord, unblock := Switch.throw, settings := {}, arena := Arena.ofCapacity 65536 }

/-- A delivery that fails. -/
def failOnce : List (Call Switch) :=
  [.connect, .read, .acknowledge (some "down")].map (Call.mk ⟨0⟩)

/-- One read. -/
def readOnce : List (Call Switch) := [.read].map (Call.mk ⟨0⟩)

/-- **With two levels a message comes again that has been acknowledged.**  Its first delivery
    fails at both levels, the second one succeeds and is settled, and the third read gives it
    once more, from the inner queue. -/
theorem acknowledged_returns :
    let s := (run (failOnce ++ readOnce) (above 2 overOneRecord)).next
    let settled := (MessageReader.acknowledge (⟨0⟩ : Switch) none s).next
    (messagesRead readOnce (run failOnce (above 2 overOneRecord)).next).map Message.payloads =
      [[[97]]] ∧
    (messagesRead readOnce settled).map Message.payloads = [[[97]]] := by
  decide +kernel

/-- With two levels the record waits at the inner one when it is settled, so it is read again. -/
theorem returns_iff_waits_one_record :
    Feed.make oneRecord Switch.throw {} = .ok overOneRecord ∧
    (oneRecord.streams.flatMap fun stream => (stream.scan {}).carried).Nodup ∧
    (∀ call ∈ readOnce, call.acknowledges = false) ∧
    (∀ call ∈ failOnce ++ readOnce, call.surroundings.thrown = 0) ∧
    (waiting 2 (run (failOnce ++ readOnce) (above 2 overOneRecord)).next).map Message.payloads =
      [[[97]]] ∧
    ∀ message ∈ messagesRead readOnce (run failOnce (above 2 overOneRecord)).next,
      (∃ later : List (Call Switch), (∀ call ∈ later, call.surroundings.thrown = 0) ∧
        message.payloads ∈ (messagesRead later (MessageReader.acknowledge (⟨0⟩ : Switch) none
          (run (failOnce ++ readOnce) (above 2 overOneRecord)).next).next).map Message.payloads) ↔
      message ∈ waiting 2 (run (failOnce ++ readOnce) (above 2 overOneRecord)).next :=
  have hmake : Feed.make oneRecord Switch.throw {} = .ok overOneRecord := rfl
  have hrecords : (oneRecord.streams.flatMap fun stream => (stream.scan {}).carried) = [[97]] := by
    show (cut [10] 65536 .over [97, 10]).carried ++ [] = [[97]]
    cbv
  have hdistinct : (oneRecord.streams.flatMap fun stream => (stream.scan {}).carried).Nodup :=
    hrecords ▸ List.nodup_singleton _
  have hsince : ∀ call ∈ readOnce, call.acknowledges = false := by simp [readOnce, Call.acknowledges]
  have hquiet : ∀ call ∈ failOnce ++ readOnce, call.surroundings.thrown = 0 := by
    simp [failOnce, readOnce]
  ⟨hmake, hdistinct, hsince, hquiet, by decide +kernel, fun message hmessage =>
    (returns_iff_waits hmake hdistinct 2 hsince hquiet (w := ⟨0⟩) rfl message hmessage).1⟩

end Stack

end RecordFeed
