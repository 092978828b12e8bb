/-
  Streams, policies and factories that follow a script.

  A script lists beforehand what the world will do: the bytes a handle gives, its failures, the
  decisions of a policy, the streams of a factory.  Scripted parts stand in for files and sockets
  wherever the behaviour of a feed is to be tried out or stated for all behaviours of the world.

  All scripted streams hang on one switch.  Once it is thrown, every read says that the stream is
  over, whatever the script says, and the script stays where it is.
-/
import RecordFeed.Source
import RecordFeed.Split

namespace RecordFeed

/-- The switch on which all scripted streams hang, by how often it was thrown. -/
structure Switch where
  thrown : Nat := 0
deriving Repr, DecidableEq

/-- Throws the switch once more. -/
def Switch.throw (w : Switch) : Switch := ⟨w.thrown + 1⟩

/-- One step of a scripted stream. -/
inductive Cue where
  /-- Gives these bytes, in as many reads as the room offered makes necessary. -/
  | data (bytes : Bytes)
  /-- Fails once. -/
  | fails (error : IoError)
  /-- Is interrupted once. -/
  | interrupts
  /-- Says once that the stream is over. -/
  | ends
deriving Repr

/-- Bytes that come in pieces of `size` bytes each, the last one perhaps shorter. -/
def Cue.pieces (size : Nat) (bytes : Bytes) : List Cue :=
  if _h : size = 0 ∨ bytes = [] then if bytes.isEmpty then [] else [.data bytes]
  else .data (bytes.take size) :: pieces size (bytes.drop size)
termination_by bytes.length
decreasing_by
  have := List.length_pos_iff.mpr (fun hb => _h (Or.inr hb))
  simp only [List.length_drop]
  omega

/-- The reads that a step can still answer with something other than the end. -/
def Cue.weight : Cue → Nat
  | .data bytes => bytes.length
  | .fails _ | .interrupts | .ends => 1

/-- A stream that plays its steps one after another and then is over. -/
structure Script where
  cues : List Cue
deriving Repr

namespace Script

/-- A read while the switch has not been thrown.  Steps without bytes are passed over, because a
    read that gives nothing would be the end; and with no room at all a read is the end, whatever
    comes next. -/
def play (room : Nat) : List Cue → ReadOutcome Script
  | [] => .ended ⟨[]⟩
  | .ends :: rest => .ended ⟨rest⟩
  | .fails error :: rest => .failed error ⟨rest⟩
  | .interrupts :: rest => .interrupted ⟨rest⟩
  | .data [] :: rest => play room rest
  | .data (b :: bytes) :: rest =>
    match room with
    | 0 => .ended ⟨.data (b :: bytes) :: rest⟩
    | n + 1 => .data (b :: bytes.take n) ⟨.data (bytes.drop n) :: rest⟩

/-- One read under the switch. -/
def read (w : Switch) (s : Script) (room : Nat) : ReadOutcome Script :=
  if w.thrown = 0 then play room s.cues else .ended s

/-- The weight of all steps not yet played. -/
def weight : List Cue → Nat
  | [] => 0
  | cue :: rest => cue.weight + weight rest

@[simp] theorem weight_nil : weight [] = 0 := rfl

@[simp] theorem weight_cons (c : Cue) (rest : List Cue) :
    weight (c :: rest) = c.weight + weight rest := rfl

/-- What a read gives is taken from what was there.  By induction on the steps that are passed
    over. -/
theorem play_data {room : Nat} {cues : List Cue} {bytes : Bytes} {next : Script}
    (h : play room cues = .data bytes next) :
    bytes ≠ [] ∧ bytes.length ≤ room ∧ weight next.cues + bytes.length ≤ weight cues := by
  fun_induction play room cues with
  | case1 | case2 | case3 | case4 | case6 => simp at h
  | case5 rest ih =>
    obtain ⟨h1, h2, h3⟩ := ih h
    exact ⟨h1, h2, by simpa [Cue.weight] using h3⟩
  | case7 b bytes' rest n =>
    simp only [ReadOutcome.data.injEq] at h
    obtain ⟨rfl, rfl⟩ := h
    -- so many bytes as there is room for leave the step, and the rest of it stays
    refine ⟨by simp, by simp; omega, ?_⟩
    simp only [weight_cons, Cue.weight, List.length_drop, List.length_cons, List.length_take]
    omega

/-- A script does not become heavier by ending. -/
theorem play_ended {room : Nat} {cues : List Cue} {next : Script}
    (h : play room cues = .ended next) : weight next.cues ≤ weight cues := by
  fun_induction play room cues with
  | case1 | case2 | case6 =>
    simp only [ReadOutcome.ended.injEq] at h
    subst h
    simp
  | case3 | case4 | case7 => simp at h
  | case5 rest ih => simpa [Cue.weight] using ih h

/-- An interruption is a step of the script, and it has been played. -/
theorem play_interrupted {room : Nat} {cues : List Cue} {next : Script}
    (h : play room cues = .interrupted next) : weight next.cues < weight cues := by
  fun_induction play room cues with
  | case1 | case2 | case3 | case6 | case7 => simp at h
  | case4 rest =>
    simp only [ReadOutcome.interrupted.injEq] at h
    subst h
    simp [Cue.weight]
  | case5 rest ih => simpa [Cue.weight] using ih h

/-- A failure is played once and then is behind. -/
theorem play_failed {room : Nat} {cues : List Cue} {error : IoError} {next : Script}
    (h : play room cues = .failed error next) : weight next.cues ≤ weight cues := by
  fun_induction play room cues with
  | case1 | case2 | case4 | case6 | case7 => simp at h
  | case3 error' rest =>
    simp only [ReadOutcome.failed.injEq] at h
    obtain ⟨-, rfl⟩ := h
    simp
  | case5 rest ih => simpa [Cue.weight] using ih h

instance : ByteSource Switch Script where
  read := Script.read
  left _ s := weight s.cues
  read_data h := by
    unfold Script.read at h
    split at h
    · exact play_data h
    · simp at h
  read_ended h := by
    unfold Script.read at h
    split at h
    · exact play_ended h
    · simp only [ReadOutcome.ended.injEq] at h
      exact h ▸ Nat.le_refl _
  read_interrupted h := by
    unfold Script.read at h
    split at h
    · exact play_interrupted h
    · simp at h
  read_failed h := by
    unfold Script.read at h
    split at h
    · exact play_failed h
    · simp at h

end Script

/-- A policy that gives its decisions one after another, whatever it is shown, and then stops. -/
structure Decisions where
  upcoming : List Split
deriving Repr

/-- The next decision. -/
def Decisions.next (d : Decisions) : Split × Decisions :=
  match d.upcoming with
  | [] => (.finished, d)
  | decision :: rest => (decision, ⟨rest⟩)

instance : SplitPolicy Decisions where
  split d _ _ := d.next
  splitBuffered d window _ := (d.next, window)

/-- What a scripted factory has in store for one request. -/
inductive Offer where
  | stream (script : Script)
  | refused (error : IoError)
  /-- There is nothing to be had this time. -/
  | nothing
deriving Repr

/-- A factory that makes its offers one after another and then has nothing. -/
structure Offers where
  upcoming : List Offer
deriving Repr

instance : StreamFactory Switch Offers Script where
  nextStream _ f :=
    match f.upcoming with
    | [] => { answer := .exhausted, next := f }
    | .stream script :: rest => { answer := .stream script, next := ⟨rest⟩ }
    | .refused error :: rest => { answer := .failed error, next := ⟨rest⟩ }
    | .nothing :: rest => { answer := .exhausted, next := ⟨rest⟩ }

end RecordFeed
