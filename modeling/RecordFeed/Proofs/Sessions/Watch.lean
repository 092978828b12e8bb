/-
  A factory under watch.

  A feed does not say how often it asks its factory, and a factory may report whatever it likes into
  the events of a run.  `Watched` is a factory that does as another one does and keeps two books on
  it: what it answered, in order (`answers`), and what it reported (`words`).  It reports nothing
  itself, so that all events of a run over it are those of the feed.

  The watch changes nothing about a run (`run_unwatched`): answers and states are the same, and the
  events are those of the feed with the words of the factory put between them.
-/
import RecordFeed.Proofs.Sessions.FeedCalls

namespace RecordFeed

/-- A factory, with what it answered and what it reported.  Both books are only written, so that a
    feed cannot depend on them. -/
structure Watched (φ η : Type) where
  factory : φ
  answers : List (Opening η) := []
  words : List Event := []

instance {ω φ η : Type} [StreamFactory ω φ η] : StreamFactory ω (Watched φ η) η where
  nextStream w watched :=
    let asked := StreamFactory.nextStream w watched.factory
    { answer := asked.answer
      next :=
        { factory := asked.next
          answers := watched.answers ++ [asked.answer]
          words := watched.words ++ asked.events } }

namespace Watched

variable {φ η : Type}

/-- The factory has said that there are no further streams. -/
def Exhausted (watched : Watched φ η) : Prop := .exhausted ∈ watched.answers

/-- How many handles the factory gave. -/
def given (watched : Watched φ η) : Nat :=
  watched.answers.countP fun
    | .stream _ => true
    | .exhausted | .failed _ => false

end Watched

namespace Feed

variable {ω φ η : Type}

/-- The same feed, with its factory under watch. -/
def watched (f : Feed ω φ η) : Feed ω (Watched φ η) η :=
  { f with factory := { factory := f.factory } }

/-- The same feed, without the books on its factory. -/
def unwatched (f : Feed ω (Watched φ η) η) : Feed ω φ η := { f with factory := f.factory.factory }

/-- Taking the books away again leaves the feed that was put under watch. -/
@[simp] theorem unwatched_watched (f : Feed ω φ η) : f.watched.unwatched = f := rfl

/-- What a reply to a watched feed says about the reply to the feed itself: the same answer, the
    same state, and the same events but for the words of the factory.  In which order the two kinds
    of events are mixed depends on the factory, so the last part is up to a permutation. -/
structure SaysOf {α : Type} (before : Feed ω (Watched φ η) η)
    (watched : Reply (Feed ω (Watched φ η) η) α) (plain : Reply (Feed ω φ η) α) : Prop where
  answer_eq : plain.answer = watched.answer
  next_eq : plain.next = watched.next.unwatched
  in_order : watched.events.Sublist plain.events
  words : ∃ spoken, watched.next.factory.words = before.factory.words ++ spoken ∧
    plain.events.Perm (watched.events ++ spoken)

/-- A reply that the factory has no part in. -/
theorem SaysOf.of_silent {α : Type} {before : Feed ω (Watched φ η) η}
    {watched : Reply (Feed ω (Watched φ η) η) α} {plain : Reply (Feed ω φ η) α}
    (hplain : plain = watched.within unwatched) (hfactory : watched.next.factory = before.factory) :
    SaysOf before watched plain := by
  -- no word was spoken
  subst hplain
  refine ⟨rfl, rfl, List.Sublist.refl _, [], ?_, ?_⟩
  · rw [hfactory, List.append_nil]
  · rw [List.append_nil]
    exact List.Perm.refl _

/-- The same words, with another form of the answer. -/
theorem SaysOf.map {α β : Type} {before : Feed ω (Watched φ η) η}
    {watched : Reply (Feed ω (Watched φ η) η) α} {plain : Reply (Feed ω φ η) α}
    (h : SaysOf before watched plain) (form : α → β) :
    SaysOf before (watched.map form) (plain.map form) :=
  ⟨congrArg form h.answer_eq, h.next_eq, h.in_order, h.words⟩

/-- Giving a stream back does not involve the factory. -/
@[simp] theorem release_factory (f : Feed ω φ η) : f.release.next.factory = f.factory := by
  cases h : f.link <;> simp [release, h]

/-- It is the same under watch. -/
theorem release_unwatched (f : Feed ω (Watched φ η) η) :
    f.unwatched.release = f.release.within unwatched := by
  obtain ⟨factory, unblock, settings, arena, link⟩ := f
  cases link <;> rfl

/-- So is what is done at the end of a read. -/
theorem settle_unwatched (f : Feed ω (Watched φ η) η) (message : Message) (ending : Ending)
    (events : List Event) :
    f.unwatched.settle message ending events = (f.settle message ending events).within unwatched := by
  have hrelease := release_unwatched f
  cases ending with
  | complete => rfl
  | drained | failed error =>
    simp only [settle, hrelease]
    rfl

/-- Reading does not involve the factory. -/
theorem read_unwatched [ByteSource ω η] (w : ω) (f : Feed ω (Watched φ η) η) :
    f.unwatched.read w = (f.read w).within unwatched := by
  cases hlink : f.link with
  | idle | closed =>
    have hfree : f.link.isConnected = false := by rw [hlink]; rfl
    rw [read_not_connected hfree, read_not_connected (f := f.unwatched) hfree]
    rfl
  | connected scanner =>
    rw [read_connected hlink, read_connected (f := f.unwatched) hlink]
    let gathered := gather w f.settings.multipart scanner { arena := f.arena }
    exact settle_unwatched
      { f with link := .connected gathered.next.1, arena := gathered.next.2.arena }
      gathered.next.2.message gathered.answer gathered.events

variable [StreamFactory ω φ η]

/-- Connecting asks the factory at most once, and its words come right behind the question. -/
theorem connect_unwatched (w : ω) (f : Feed ω (Watched φ η) η) :
    SaysOf f (f.connect w) (f.unwatched.connect w) := by
  obtain ⟨⟨factory, answers, words⟩, unblock, settings, arena, link⟩ := f
  cases link with
  | connected scanner => exact SaysOf.of_silent rfl rfl
  | closed => exact SaysOf.of_silent rfl rfl
  | idle =>
    rcases hasked : StreamFactory.nextStream w factory with ⟨answer, next, spoken⟩
    -- the words stand between the question and what the feed reports of the answer
    have hbetween (own : List Event) :
        (Event.asked :: own).Sublist (.asked :: spoken ++ own) ∧
          (.asked :: spoken ++ own).Perm (.asked :: own ++ spoken) := by
      refine ⟨(List.sublist_append_right spoken own).cons_cons _, ?_⟩
      have hswap : (spoken ++ own).Perm (own ++ spoken) := List.perm_append_comm
      exact hswap.cons _
    cases answer <;>
      simp only [connect, unwatched, StreamFactory.nextStream, hasked] <;>
      exact ⟨rfl, rfl, (hbetween _).1, spoken, rfl, (hbetween _).2⟩

variable [ByteSource ω η]

/-- One call is answered the same under watch. -/
theorem ask_unwatched (call : Call ω) (f : Feed ω (Watched φ η) η) :
    SaysOf f (call.ask f) (call.ask f.unwatched) := by
  obtain ⟨w, request⟩ := call
  cases request with
  | connect => exact (connect_unwatched w f).map _
  | read => exact (SaysOf.of_silent (read_unwatched w f) (read_factory w f)).map _
  | acknowledge failure => cases failure <;> exact SaysOf.of_silent rfl rfl
  | waitForClose milliseconds =>
    have hrelease := release_unwatched f
    refine SaysOf.map (SaysOf.of_silent ?_ ?_) _
    · show f.unwatched.waitForClose milliseconds = (f.waitForClose milliseconds).within unwatched
      rw [waitForClose, waitForClose, hrelease]
      rfl
    · exact release_factory f

/-- **Being watched changes nothing about a run.** By induction on the calls: the words of a call
    come among its own events, so those of a run come among the events of the run. -/
theorem run_unwatched (calls : List (Call ω)) (f : Feed ω (Watched φ η) η) :
    SaysOf f (run calls f) (run calls f.unwatched) := by
  induction calls generalizing f with
  | nil => exact SaysOf.of_silent rfl rfl
  | cons call later ih =>
    have hfirst := ask_unwatched call f
    have hrest := ih (call.ask f).next
    rw [← hfirst.next_eq] at hrest
    obtain ⟨spoken, hspoken, hperm⟩ := hfirst.words
    obtain ⟨after, hafter, hperm'⟩ := hrest.words
    refine ⟨?_, hrest.next_eq, hfirst.in_order.append hrest.in_order, spoken ++ after, ?_, ?_⟩
    · rw [run_cons_answer, run_cons_answer, hfirst.answer_eq, hrest.answer_eq]
    · rw [run_cons_next, hafter, hspoken, List.append_assoc]
    · -- the words of the first call move behind the events of the others
      refine (hperm.append hperm').trans ?_
      show ((call.ask f).events ++ spoken ++ ((run later (call.ask f).next).events ++ after)).Perm
        ((call.ask f).events ++ (run later (call.ask f).next).events ++ (spoken ++ after))
      rw [List.append_assoc, List.append_assoc]
      refine List.Perm.append_left _ ?_
      rw [← List.append_assoc, ← List.append_assoc]
      exact List.perm_append_comm.append_right _

end Feed

end RecordFeed
