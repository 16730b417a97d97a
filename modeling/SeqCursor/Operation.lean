import SeqCursor.Cursor.Reading

/-!
# Operations as values

Everything that can be asked of a cursor, as a value, and what it answers.  A run
performs a list of operations one after the other and records what an onlooker
sees of each.
-/

namespace SeqCursor

/-- A request to a cursor over elements in `α`. -/
inductive Operation (α : Type) where
  | position
  | isEmpty
  | atEnd
  | peek
  | current
  | next
  | demand
  | accept (value : α)
  | nextMatches (value : α)
  | upTo (value : α)
  | upToEnd
  | skipPast (value : α)
  | take (count : Nat)
  | remaining
  | contents
  | reversed
  | visitRemaining
  | seek (target : Int)
  | skip (move : Int)
  | rewind
  | seekEnd
  deriving DecidableEq, Repr

/-- What an operation answers, over sequences in `S` with elements in `α`. -/
inductive Answer (S α : Type) where
  /-- There was nothing to answer. -/
  | done
  | decided (holds : Bool)
  | position (position : Int)
  | sought (position? : Option Int)
  | element (element? : Option α)
  | demanded (element : α)
  | failed (error : ReadError)
  | part (part : S)
  | reversed (part? : Option S)
  | visited (elements : List α)
  deriving DecidableEq, Repr

/-- The answer to a read that may fail. -/
def Answer.ofExcept {S α : Type} : Except ReadError α → Answer S α
  | .ok found => .demanded found
  | .error error => .failed error

namespace Cursor

variable {S α : Type} [Sequence S α] [BEq α]

def perform (c : Cursor S) : Operation α → Except Fault (Reply (Cursor S) (Answer S α))
  | .position => .ok ⟨.position c.position, c, []⟩
  | .isEmpty => .ok ⟨.decided c.isEmpty, c, []⟩
  | .atEnd => .ok ⟨.decided c.atEnd, c, []⟩
  | .peek => do
      let found ← c.peek
      return ⟨.element found, c, []⟩
  | .current => .ok ⟨.element c.current, c, []⟩
  | .next => return (← c.next).map .element
  | .demand => return (← c.demand).map .ofExcept
  | .accept value => return (← c.accept value).map .decided
  | .nextMatches value => return (← c.nextMatches value).map .decided
  | .upTo value => return (← c.upTo value).map .part
  | .upToEnd => return (← c.upToEnd).map .part
  | .skipPast value => return (← c.skipPast value).map .decided
  | .take count => return (← c.take count).map .part
  | .remaining => do
      let rest ← c.remaining
      return ⟨.part rest, c, []⟩
  | .contents => .ok ⟨.part c.contents, c, []⟩
  | .reversed => .ok ⟨.reversed c.reversed?, c, []⟩
  | .visitRemaining => do
      let visited ← c.foldRemaining Array.push #[]
      return ⟨.visited visited.toList, c, []⟩
  | .seek target => return (← c.seek target).map .sought
  | .skip move => return (← c.skip move).map fun _ => .done
  | .rewind => .ok ⟨.done, c.rewind, []⟩
  | .seekEnd => do
      let moved ← c.seekEnd
      return ⟨.done, moved, []⟩

end Cursor

/-- What an onlooker sees of an operation: the answer, the notices, and where the
cursor is afterwards. -/
structure Observation (S α : Type) where
  answer : Answer S α
  notices : List Notice
  position : Int
  atEnd : Bool
  deriving DecidableEq, Repr

namespace Cursor

variable {S α : Type} [Sequence S α]

def observe (reply : Reply (Cursor S) (Answer S α)) : Observation S α :=
  ⟨reply.answer, reply.notices, reply.cursor.position, reply.cursor.atEnd⟩

/-- Performs operations one after the other. -/
def run [BEq α] (c : Cursor S) :
    List (Operation α) → Except Fault (Reply (Cursor S) (List (Observation S α)))
  | [] => .ok ⟨[], c, []⟩
  | operation :: operations => do
      let reply ← c.perform operation
      let later ← reply.cursor.run operations
      return ⟨observe reply :: later.answer, later.cursor, reply.notices ++ later.notices⟩

theorem run_cons [BEq α] {c : Cursor S} {operation : Operation α}
    {operations : List (Operation α)} {reply : Reply (Cursor S) (Answer S α)}
    {later : Reply (Cursor S) (List (Observation S α))}
    (hreply : c.perform operation = .ok reply)
    (hlater : reply.cursor.run operations = .ok later) :
    c.run (operation :: operations) =
      .ok ⟨observe reply :: later.answer, later.cursor, reply.notices ++ later.notices⟩ := by
  rw [run, hreply]
  change (reply.cursor.run operations >>= _) = _
  rw [hlater]
  rfl

end Cursor

end SeqCursor
