import SeqCursor.Cursor.Basic
import SeqCursor.Reply

/-!
# Moving a cursor

Absolute moves refuse a target outside of the sequence and leave the cursor where
it was.  Relative moves that would leave the sequence, in either direction, lead
to its end instead.  A move by one reuses the offset that the cursor keeps; any
other resolves its target from the start of the sequence.
-/

namespace SeqCursor.Cursor

variable {S α : Type} [Sequence S α]

/-- The cursor at `target`, with the offset of the element behind it. -/
def moveTo (c : Cursor S) (target : Int) : Except Fault (Cursor S) := do
  let following ← Position.succ c.position
  if target = following then
    match ← c.ahead with
    | some (_, offset) => return { c with position := target, offset := offset }
    | none => return { c with position := target }
  else
    let index ← Position.toIndex (← Position.succ target)
    return { c with position := target, offset := Sequence.offsetOf c.sequence index }

/-- Moves to a position between `beforeFirst` and the length and answers it;
refuses any other. -/
def seek (c : Cursor S) (target : Int) : Except Fault (Reply (Cursor S) (Option Int)) :=
  if beforeFirst ≤ target ∧ target ≤ c.length then do
    let moved ← c.moveTo target
    return ⟨some target, moved, []⟩
  else
    .ok ⟨none, c, [.rejectedPosition target c.length]⟩

/-- Moves back before the first element. -/
def rewind (c : Cursor S) : Cursor S :=
  { c with position := beforeFirst, offset := 0 }

/-- Moves past the last element. -/
def seekEnd (c : Cursor S) : Except Fault (Cursor S) :=
  c.moveTo c.length

/-- Moves by `move` elements, forwards or backwards.  A move that would leave the
sequence ends behind its last element. -/
def skip (c : Cursor S) (move : Int) : Except Fault (Reply (Cursor S) Unit) := do
  let sought ←
    match Position.add? c.position move with
    | some target => c.seek target
    | none => .ok ⟨none, c, []⟩
  match sought.answer with
  | some _ => return sought.map fun _ => ()
  | none =>
      let moved ← sought.cursor.seekEnd
      return ⟨(), moved, sought.notices ++ [.skipLeaves move sought.cursor.position]⟩

end SeqCursor.Cursor
