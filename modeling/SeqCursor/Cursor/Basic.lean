import SeqCursor.Sequence.Basic

/-!
# Cursors

A cursor keeps a place in a sequence.  Its position ranges from
`Cursor.beforeFirst`, where nothing has been read, to the length of the sequence,
where nothing is left; the next read answers the element at `position + 1`.
Beside the position the cursor keeps the storage offset of that element, so that
reading on never searches the sequence from its start.

Cursors are values.  A saved one is a mark to come back to, whatever is read
through the other in the meantime.
-/

namespace SeqCursor

/-- A place in a sequence. -/
structure Cursor (S : Type) where
  sequence : S
  position : Int
  /-- The number of elements of `sequence`. -/
  length : Nat
  /-- The storage offset of the element at `position + 1`, or the end of storage
  where there is none. -/
  offset : Nat
  deriving DecidableEq, Repr

namespace Cursor

variable {S α β : Type} [Sequence S α]

/-- The position of a cursor that has not read anything yet. -/
def beforeFirst : Int := -1

/-- The cursor before the first element of a sequence. -/
def on (s : S) : Cursor S :=
  ⟨s, beforeFirst, Sequence.length s, 0⟩

/-- Whether the sequence has no elements at all. -/
def isEmpty (c : Cursor S) : Bool :=
  c.length == 0

/-- Whether the cursor has moved past the last element. -/
def atEnd (c : Cursor S) : Bool :=
  c.position == (c.length : Int)

/-- The whole sequence, however much of it has been read. -/
def contents (c : Cursor S) : S :=
  c.sequence

/-- The element at the offset of the cursor, and the offset behind it. -/
def ahead (c : Cursor S) : Except Fault (Option (α × Nat)) :=
  Sequence.atOffset c.sequence c.offset

/-- The element that the next read answers. -/
def peek (c : Cursor S) : Except Fault (Option α) :=
  if c.atEnd then
    .ok none
  else do
    let found ← c.ahead
    return found.map Prod.fst

/-- The element at the position: after a single read the one just read, after a
block the one behind the block. -/
def current (c : Cursor S) : Option α :=
  if c.position < 0 ∨ (c.length : Int) ≤ c.position then
    none
  else
    Sequence.beforeOffset c.sequence c.offset

/-- The part of the sequence that has not been read yet. -/
def remaining (c : Cursor S) : Except Fault S := do
  let following ← Position.succ c.position
  let start ← Position.toIndex (max following 0)
  Sequence.slice c.sequence start c.length

/-- Folds over the elements that have not been read yet, in order. -/
def foldRemaining (c : Cursor S) (f : β → α → β) (init : β) : Except Fault β := do
  let rest ← c.remaining
  return (Sequence.toList rest).foldl f init

/-- The contents in reverse order.  No sequence provides them so far. -/
def reversed? (_ : Cursor S) : Option S :=
  none

end Cursor

end SeqCursor
