import Mathlib.Data.List.TakeDrop

/-!
# Frames in a stream

A frame tells its own end: from what a reader has got so far, it knows how many symbols
it may ask for next, or that the frame is whole. So a reader takes a frame out of a stream
exactly (`Framing.progress_cases`), in whatever pieces the symbols arrive.
-/

namespace Foundation

variable {β : Type}

/-- How far a reader has come in a frame. -/
inductive Progress (β : Type) where
  | wants (missing : Nat)
  | whole (body : List β)
  | broken

/-- Frames for the valid bodies. -/
structure Framing (β : Type) where
  Valid : List β → Prop
  frame : List β → List β
  progress : List β → Progress β
  progress_frame : ∀ {body}, Valid body → progress (frame body) = .whole body
  progress_part : ∀ {body got rest}, Valid body → frame body = got ++ rest → rest ≠ [] →
    ∃ missing, progress got = .wants missing

namespace Framing

variable (framing : Framing β)

/-- One read of at most `count` symbols by a reader that has got some symbols of a frame:
what it has got then, and what the stream still holds. -/
def fetch (got stream : List β) (count : Nat) : List β × List β :=
  match framing.progress got with
  | .wants missing => (got ++ stream.take (min count missing), stream.drop (min count missing))
  | _ => (got, stream)

/-- A fetch loses nothing. -/
theorem fetch_append (got stream : List β) (count : Nat) :
    (framing.fetch got stream count).1 ++ (framing.fetch got stream count).2 = got ++ stream := by
  rw [fetch]
  split
  · rw [List.append_assoc, List.take_append_drop]
  · rfl

/-- Within a frame, a reader has the whole of it or wants more. -/
theorem progress_cases {body got rest : List β} (valid : framing.Valid body)
    (within : got ++ rest = framing.frame body) :
    (framing.progress got = .whole body ∧ rest = []) ∨
      ∃ missing, framing.progress got = .wants missing := by
  by_cases ended : rest = []
  · left
    rw [ended, List.append_nil] at within
    rw [within]
    exact ⟨framing.progress_frame valid, ended⟩
  · right
    exact framing.progress_part valid within.symm ended

end Framing

end Foundation
