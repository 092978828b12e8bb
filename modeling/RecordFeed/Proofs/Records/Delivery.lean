/-
  What a handle delivers.

  A handle that keeps the contract of reading has some bytes to give and comes to some ending.  It
  is free in all else: how many bytes a read gives (at least one, and no more than there is room
  for), and how often it is interrupted.  `Delivers` says just that.  Two things follow:

  * `pull_leaves`         reading until a read is not interrupted keeps what is still to be
                          delivered;
  * `Script.delivers`     a scripted stream delivers the bytes of its steps up to the first failure
                          or end, however its steps are cut.
-/
import RecordFeed.Proofs.Records.Reference
import RecordFeed.Scanner
import RecordFeed.Script

namespace RecordFeed

variable {ω η : Type} [ByteSource ω η] {w : ω}

/-- In the surroundings `w` the handle gives these bytes, in pieces of any size and with any
    interruptions between them, and then comes to this ending.  The relation is inductive: a handle
    that gives bytes for ever delivers nothing.  Nothing is asked of a read without room, and
    nothing of a handle behind its ending. -/
inductive Delivers (w : ω) : η → Bytes → StreamEnd → Prop where
  | intro {h : η} {bytes : Bytes} {ending : StreamEnd}
      /- a piece is what the bytes begin with ... -/
      (piece : ∀ {room : Nat} {piece : Bytes} {next : η}, 0 < room →
        ByteSource.read w h room = .data piece next → piece <+: bytes)
      /- ... and the rest of them is delivered later -/
      (later : ∀ {room : Nat} {piece : Bytes} {next : η}, 0 < room →
        ByteSource.read w h room = .data piece next →
          Delivers w next (bytes.drop piece.length) ending)
      (again : ∀ {room : Nat} {next : η}, 0 < room →
        ByteSource.read w h room = .interrupted next → Delivers w next bytes ending)
      (finished : ∀ {room : Nat} {next : η}, 0 < room →
        ByteSource.read w h room = .ended next → bytes = [] ∧ ending = .over)
      (broken : ∀ {room : Nat} {error : IoError} {next : η}, 0 < room →
        ByteSource.read w h room = .failed error next → bytes = [] ∧ ending = .broken error) :
      Delivers w h bytes ending

/-! ## Reading until a read is not interrupted

  Interruptions move a handle on without giving anything.  So what is delivered is not changed
  by them. -/

namespace Scanner

/-- What is still to be delivered after a read that was not interrupted. -/
def Pulled.Leaves (w : ω) (bytes : Bytes) (ending : StreamEnd) : Pulled η → Prop
  | .data piece next => piece <+: bytes ∧ Delivers w next (bytes.drop piece.length) ending
  | .ended _ => bytes = [] ∧ ending = .over
  | .failed error _ => bytes = [] ∧ ending = .broken error

/-- Reading until a read is not interrupted keeps what is still to be delivered.  By induction on
    the interruptions, each of which leaves the same bytes to come. -/
theorem pull_leaves {h : η} {bytes : Bytes} {ending : StreamEnd} {room : Nat} (hroom : 0 < room)
    (hdelivers : Delivers w h bytes ending) : (pull w room h).1.Leaves w bytes ending := by
  fun_induction pull w room h with
  | case1 h piece next hread =>
    obtain ⟨hpiece, hlater, -, -, -⟩ := hdelivers
    exact ⟨hpiece hroom hread, hlater hroom hread⟩
  | case2 h next hread =>
    obtain ⟨-, -, -, hover, -⟩ := hdelivers
    exact hover hroom hread
  | case3 h error next hread =>
    obtain ⟨-, -, -, -, hbroken⟩ := hdelivers
    exact hbroken hroom hread
  | case4 h next hread ih =>
    obtain ⟨-, -, hagain, -, -⟩ := hdelivers
    exact ih (hagain hroom hread)

end Scanner

/-! ## Scripted streams

  A script lists what its reads come to, so that it is known what it delivers: the bytes up to
  the first end or failure. -/

namespace Script

/-- The bytes that the steps give before the first failure or end. -/
def content : List Cue → Bytes
  | .data bytes :: rest => bytes ++ content rest
  | .interrupts :: rest => content rest
  | .fails _ :: _ | .ends :: _ | [] => []

/-- What the stream ends with. -/
def ending : List Cue → StreamEnd
  | .data _ :: rest | .interrupts :: rest => ending rest
  | .fails error :: _ => .broken error
  | .ends :: _ | [] => .over

/-- A read gives what the content begins with. -/
theorem content_of_play_data {room : Nat} {cues : List Cue} {piece : Bytes} {next : Script}
    (h : play room cues = .data piece next) :
    content cues = piece ++ content next.cues ∧ ending cues = ending next.cues := by
  fun_induction play room cues with
  | case1 | case2 | case3 | case4 | case6 => simp at h
  | case5 rest ih => exact ih h
  | case7 b bytes rest n =>
    obtain ⟨rfl, rfl⟩ := ReadOutcome.data.inj h
    refine ⟨?_, rfl⟩
    -- what was read of the step and what stays of it are the step
    simp only [content, List.cons_append]
    rw [← List.append_assoc, List.take_append_drop]

/-- An interruption is no part of the content. -/
theorem content_of_play_interrupted {room : Nat} {cues : List Cue} {next : Script}
    (h : play room cues = .interrupted next) :
    content cues = content next.cues ∧ ending cues = ending next.cues := by
  fun_induction play room cues with
  | case1 | case2 | case3 | case6 | case7 => simp at h
  | case4 rest =>
    obtain rfl := ReadOutcome.interrupted.inj h
    exact ⟨rfl, rfl⟩
  | case5 rest ih => exact ih h

/-- A read with room that says the stream is over is the last one with nothing left before it.
    Without room it would say so at any time. -/
theorem content_of_play_ended {room : Nat} {cues : List Cue} {next : Script} (hroom : 0 < room)
    (h : play room cues = .ended next) : content cues = [] ∧ ending cues = .over := by
  fun_induction play room cues with
  | case1 | case2 => exact ⟨rfl, rfl⟩
  | case3 | case4 | case7 => simp at h
  | case5 rest ih => exact ih h
  | case6 => omega

/-- A failure is how the content ends. -/
theorem content_of_play_failed {room : Nat} {cues : List Cue} {error : IoError} {next : Script}
    (h : play room cues = .failed error next) :
    content cues = [] ∧ ending cues = .broken error := by
  fun_induction play room cues with
  | case1 | case2 | case4 | case6 | case7 => simp at h
  | case3 error' rest =>
    obtain ⟨rfl, -⟩ := ReadOutcome.failed.inj h
    exact ⟨rfl, rfl⟩
  | case5 rest ih => exact ih h

/-- **A scripted stream delivers its content**, as long as the switch is not thrown.  By induction
    on the weight of the steps that are left. -/
theorem delivers {w : Switch} (hw : w.thrown = 0) (s : Script) :
    Delivers w s (content s.cues) (ending s.cues) := by
  -- every read that does not end the stream leaves less behind it
  induction hn : weight s.cues using Nat.strongRecOn generalizing s with
  | ind n ih =>
    have hplay (room : Nat) : ByteSource.read w s room = play room s.cues := if_pos hw
    refine .intro ?_ ?_ ?_ ?_ ?_
    · intro room piece next _ hread
      rw [hplay] at hread
      exact ⟨_, (content_of_play_data hread).1.symm⟩
    · intro room piece next _ hread
      rw [hplay] at hread
      obtain ⟨hcontent, hending⟩ := content_of_play_data hread
      obtain ⟨hne, -, hle⟩ := play_data hread
      have hpos := List.length_pos_iff.mpr hne
      rw [hcontent, hending, List.drop_left]
      exact ih _ (by omega) next rfl
    · intro room next _ hread
      rw [hplay] at hread
      obtain ⟨hcontent, hending⟩ := content_of_play_interrupted hread
      have hlt := play_interrupted hread
      rw [hcontent, hending]
      exact ih _ (by omega) next rfl
    · intro room next hroom hread
      rw [hplay] at hread
      exact content_of_play_ended hroom hread
    · intro room error next _ hread
      rw [hplay] at hread
      exact content_of_play_failed hread

end Script

end RecordFeed
