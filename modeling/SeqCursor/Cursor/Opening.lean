import SeqCursor.Cursor.Basic
import SeqCursor.Notice
import SeqCursor.ReadError

/-!
# Opening a cursor on a range

A range of a sequence is opened as a sequence of its own.  One way clamps the
range as slices do; the other refuses a range that is inverted or ends behind the
sequence, and leaves a notice of the refusal.
-/

namespace SeqCursor.Cursor

variable {S α : Type} [Sequence S α]

/-- The cursor before the first element of a clamped range. -/
def onRange (s : S) (start stop : Nat) : Except Fault (Cursor S) := do
  let part ← Sequence.slice s start stop
  return on part

/-- A cursor that was asked for, or the reason why there is none. -/
structure Opening (S : Type) where
  outcome : Except ReadError (Cursor S)
  notices : List Notice := []

/-- The cursor before the first element of a range, where the range is one. -/
def onCheckedRange (s : S) (start stop : Nat) : Except Fault (Opening S) :=
  let length := Sequence.length s
  if stop < start ∨ length < stop then
    .ok ⟨.error (.rangeOutOfBounds start stop length), [.rejectedRange start stop length]⟩
  else do
    let c ← onRange s start stop
    return ⟨.ok c, []⟩

end SeqCursor.Cursor
