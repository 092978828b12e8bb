/-
  What one call does to a feed.

  The situation of a feed (`Link`) decides what a call can do to it:

  * a feed that holds a stream keeps it through `connect` and `acknowledge`, gives it back at
    `waitForClose`, and reads from it (`ask_of_connected`);
  * a feed that holds none reads nothing and can only be given one, by a `connect` while it is idle
    (`ask_of_not_connected`), which puts a fresh scanner over it (`link_of_opened`).

  No call changes the settings.
-/
import RecordFeed.Proofs.Sessions.Requests

namespace RecordFeed

/-- The handle that is held. -/
def Link.handle? {η : Type} : Link η → Option η
  | .connected scanner => some scanner.handle
  | _ => none

/-- The handle that was taken up between two situations. -/
def Link.opened? {η : Type} (before after : Link η) : Option η :=
  if before.isConnected then none else after.handle?

/-- Without a stream, and with more to come, a feed is idle. -/
theorem Link.eq_idle {η : Type} {link : Link η} (hfree : link.isConnected = false)
    (hopen : link ≠ .closed) : link = .idle := by
  cases link with
  | idle => rfl
  | connected scanner => simp [isConnected] at hfree
  | closed => exact absurd rfl hopen

namespace Feed

variable {ω φ η : Type} {w : ω} {f : Feed ω φ η} {scanner : Scanner η Delimiter}

/-- A feed begins with its factory and its settings.  No stream is taken up yet. -/
theorem of_make {factory : φ} {unblock : ω → ω} {settings : Settings}
    (h : make factory unblock settings = .ok f) : f.factory = factory ∧ f.settings = settings := by
  unfold make at h
  split at h
  · simp at h
  · obtain rfl := Except.ok.inj h
    exact ⟨rfl, rfl⟩

/-- A feed is made on settings that fit together. -/
theorem validate_of_make {factory : φ} {unblock : ω → ω} {settings : Settings}
    (h : make factory unblock settings = .ok f) : settings.validate = .ok () := by
  unfold make at h
  split at h
  · simp at h
  · assumption

/-! ## Connecting

  Only an idle feed asks its factory.  The equations below are the three branches of `connect`. -/

section Connecting

variable [StreamFactory ω φ η]

/-- A feed that holds a stream is connected already. -/
theorem connect_of_connected (h : f.link = .connected scanner) :
    f.connect w = { answer := .ok (), next := f } := by
  rw [connect, h]

/-- A feed whose factory had nothing more stays closed, and the factory is not asked again. -/
theorem connect_of_closed (h : f.link = .closed) :
    f.connect w = { answer := .error .closed, next := f } := by
  rw [connect, h]

/-- An idle feed asks its factory.  Its answer decides the answer of the feed, and the state is the
    one the factory has left. -/
theorem connect_of_idle (h : f.link = .idle) :
    ∃ events, f.connect w =
      match StreamFactory.nextStream w f.factory with
      | { answer := .stream handle, next := factory, .. } =>
        { answer := .ok ()
          next := { f with factory, link := .connected (f.scannerOver handle) }
          events }
      | { answer := .exhausted, next := factory, .. } =>
        { answer := .error .closed, next := { f with factory, link := .closed }, events }
      | { answer := .failed error, next := factory, .. } =>
        { answer := .error (.io error), next := { f with factory }, events } := by
  rw [connect, h]
  cases hasked : StreamFactory.nextStream w f.factory with
  | mk answer factory events => cases answer <;> exact ⟨_, rfl⟩

@[simp] theorem connect_settings (w : ω) (f : Feed ω φ η) :
    (f.connect w).next.settings = f.settings := by
  cases h : f.link with
  | connected scanner => rw [connect_of_connected h]
  | closed => rw [connect_of_closed h]
  | idle =>
    obtain ⟨events, hconnect⟩ := connect_of_idle (w := w) h
    rw [hconnect]
    cases StreamFactory.nextStream w f.factory with
    | mk answer factory events => cases answer <;> rfl

end Connecting

/-! ## Reading and giving back

  Neither reading nor giving back asks the factory or touches the settings, whatever it comes
  to. -/

@[simp] theorem release_settings (f : Feed ω φ η) : f.release.next.settings = f.settings := by
  cases h : f.link <;> simp [release, h]

@[simp] theorem read_settings [ByteSource ω η] (w : ω) (f : Feed ω φ η) :
    (f.read w).next.settings = f.settings := by
  cases hlink : f.link with
  | idle => simp [read_not_connected, hlink, Link.isConnected]
  | closed => simp [read_not_connected, hlink, Link.isConnected]
  | connected scanner =>
    rw [read_connected hlink]
    -- however gathering ends, `settle` only gives the stream back or keeps it
    cases hend : (gather w f.settings.multipart scanner { arena := f.arena }).answer <;>
      simp [settle, hend]

/-! ## One call

  The four requests are gone through here, once for a feed that holds a stream and once for one
  that does not.  Proofs about runs use what is said here and do not look at the requests
  again. -/

variable [StreamFactory ω φ η] [ByteSource ω η] {call : Call ω}

@[simp] theorem ask_settings (call : Call ω) (f : Feed ω φ η) :
    (call.ask f).next.settings = f.settings := by
  obtain ⟨w, request⟩ := call
  cases request with
  | connect => exact connect_settings w f
  | read => exact read_settings w f
  | acknowledge failure => cases failure <;> rfl
  | waitForClose milliseconds => exact release_settings f

theorem run_settings (calls : List (Call ω)) (f : Feed ω φ η) :
    (run calls f).next.settings = f.settings :=
  run_invariant (P := fun g : Feed ω φ η => g.settings = f.settings)
    (fun call _ g hg => (ask_settings call g).trans hg) rfl

/-- What a call does to a feed that holds a stream: it keeps it, gives it back or reads from it.
    The factory is not asked in any of the three. -/
theorem ask_of_connected (call : Call ω) (h : f.link = .connected scanner) :
    (call.ask f).next.factory = f.factory ∧
    (((call.ask f).next.link = .connected scanner ∧ (call.ask f).answer.read? = none) ∨
      ((call.ask f).next.link = .idle ∧ (call.ask f).answer.read? = none ∧
        ∃ milliseconds, call.request = .waitForClose milliseconds) ∨
      ((call.ask f).next = (f.read call.surroundings).next ∧
        (call.ask f).answer = .message (f.read call.surroundings).answer)) := by
  obtain ⟨w, request⟩ := call
  cases request with
  | connect =>
    show (f.connect w).next.factory = f.factory ∧ ((f.connect w).next.link = _ ∧ _ ∨ _)
    rw [connect_of_connected h]
    exact ⟨rfl, Or.inl ⟨h, rfl⟩⟩
  | read => exact ⟨read_factory w f, Or.inr (Or.inr ⟨rfl, rfl⟩)⟩
  | acknowledge failure => cases failure <;> exact ⟨rfl, Or.inl ⟨h, rfl⟩⟩
  | waitForClose milliseconds =>
    show f.release.next.factory = f.factory ∧ (_ ∨ f.release.next.link = _ ∧ _ ∨ _)
    rw [release, h]
    exact ⟨rfl, Or.inr (Or.inl ⟨rfl, rfl, milliseconds, rfl⟩)⟩

/-- What a call does to a feed that holds no stream: it reads nothing, and leaves the feed where it
    is unless an idle feed is to be connected. -/
theorem ask_of_not_connected (call : Call ω) (h : f.link.isConnected = false) :
    (call.ask f).answer.message? = none ∧
    ((f.link = .idle ∧ (call.ask f).next = (f.connect call.surroundings).next) ∨
      ((call.ask f).next.link = f.link ∧ (call.ask f).next.factory = f.factory)) := by
  obtain ⟨w, request⟩ := call
  cases request with
  | connect =>
    refine ⟨rfl, ?_⟩
    show (_ ∧ (f.connect w).next = _) ∨ ((f.connect w).next.link = _ ∧ _)
    cases hlink : f.link with
    | connected scanner => simp [hlink, Link.isConnected] at h
    | closed =>
      have hsame : (f.connect w).next = f := by rw [connect_of_closed hlink]
      exact Or.inr ⟨hsame.symm ▸ hlink, congrArg Feed.factory hsame⟩
    | idle => exact Or.inl ⟨rfl, rfl⟩
  | read =>
    have hread : (⟨w, .read⟩ : Call ω).ask f =
        { answer := .message (.error .notConnected), next := f } := by
      show Reply.mk _ _ _ = _
      rw [reader_read, read_not_connected h]
    rw [hread]
    exact ⟨rfl, Or.inr ⟨rfl, rfl⟩⟩
  | acknowledge failure => cases failure <;> exact ⟨rfl, Or.inr ⟨rfl, rfl⟩⟩
  | waitForClose milliseconds =>
    refine ⟨rfl, Or.inr ?_⟩
    show f.release.next.link = f.link ∧ f.release.next.factory = f.factory
    cases hlink : f.link with
    | connected scanner => simp [hlink, Link.isConnected] at h
    | idle | closed =>
      rw [release, hlink]
      exact ⟨hlink, rfl⟩

/-- A stream is taken up under a fresh scanner.  Nothing of the stream before it is left. -/
theorem link_of_opened {stream : η} (h : f.link.opened? (call.ask f).next.link = some stream) :
    f.link.isConnected = false ∧
      (call.ask f).next.link = .connected (f.scannerOver stream) := by
  unfold Link.opened? at h
  split at h
  · simp at h
  · rename_i hfree
    have hfree : f.link.isConnected = false := by simpa using hfree
    refine ⟨hfree, ?_⟩
    rcases (ask_of_not_connected call hfree).2 with ⟨hidle, hnext⟩ | ⟨hlink, -⟩
    · -- only connecting an idle feed leads to a stream, and then it is the one that the factory
      -- gave
      obtain ⟨events, hconnect⟩ := connect_of_idle (w := call.surroundings) hidle
      rw [hnext, hconnect] at h ⊢
      generalize StreamFactory.nextStream call.surroundings f.factory = asked at h ⊢
      obtain ⟨answer, factory, before⟩ := asked
      cases answer with
      | stream handle =>
        obtain rfl := Option.some.inj h
        rfl
      | exhausted => simp [Link.handle?] at h
      | failed error => simp [Link.handle?, hidle] at h
    · rw [hlink] at h
      -- no handle was there before, so there is none now
      cases hf : f.link with
      | connected scanner => simp [hf, Link.isConnected] at hfree
      | idle | closed => simp [hf, Link.handle?] at h

end Feed

end RecordFeed
