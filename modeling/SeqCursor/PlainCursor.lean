import SeqCursor.Operation

/-!
# Cursors without an offset

The plain way to keep a place in a sequence: the sequence and a position, nothing
else.  Elements are looked up by index, and a move stores the new position.  Sums are
unbounded but for one, the target of a relative move: a target that cannot be written
down as a position is not asked for, and the move leads to the end.  A plain cursor
takes the operations of `Cursor` and answers in the same terms, and so says what they
mean.
-/

namespace SeqCursor

/-- A place in a sequence, given by its position alone. -/
structure PlainCursor (S : Type) where
  sequence : S
  position : Int
  deriving DecidableEq, Repr

namespace PlainCursor

variable {S α : Type} [Sequence S α]

/-- The plain cursor before the first element of a sequence. -/
def on (s : S) : PlainCursor S :=
  ⟨s, Cursor.beforeFirst⟩

def length (c : PlainCursor S) : Nat :=
  Sequence.length c.sequence

/-- The element at a position, if there is one. -/
def elementAt (c : PlainCursor S) (position : Int) : Option α :=
  if 0 ≤ position then Sequence.get? c.sequence position.toNat else none

def atEnd (c : PlainCursor S) : Bool :=
  (c.length : Int) ≤ c.position

def peek (c : PlainCursor S) : Option α :=
  c.elementAt (c.position + 1)

def current (c : PlainCursor S) : Option α :=
  c.elementAt c.position

def moveTo (c : PlainCursor S) (position : Int) : PlainCursor S :=
  { c with position := position }

/-- One step on, unless the end is reached. -/
def advance (c : PlainCursor S) : PlainCursor S :=
  if c.atEnd then c else c.moveTo (c.position + 1)

/-- Reads on until an element satisfies `stops`, or to the end. -/
def scanFrom (stops : α → Bool) (passed : Array α) (c : PlainCursor S) :
    Scan α × PlainCursor S :=
  if (c.length : Int) ≤ c.position then
    (⟨passed, none⟩, c)
  else
    match c.peek with
    | none => scanFrom stops passed ⟨c.sequence, c.position + 1⟩
    | some element =>
        if stops element then
          (⟨passed, some element⟩, ⟨c.sequence, c.position + 1⟩)
        else
          scanFrom stops (passed.push element) ⟨c.sequence, c.position + 1⟩
termination_by (Sequence.length c.sequence - c.position).toNat
decreasing_by
  all_goals
    simp only [length] at *
    omega

def scan (c : PlainCursor S) (stops : α → Bool) : Scan α × PlainCursor S :=
  scanFrom stops #[] c

/-- Moves to a position within the sequence; any other is refused. -/
def seek (c : PlainCursor S) (target : Int) : Reply (PlainCursor S) (Option Int) :=
  if Cursor.beforeFirst ≤ target ∧ target ≤ c.length then
    ⟨some target, c.moveTo target, []⟩
  else
    ⟨none, c, [.rejectedPosition target c.length]⟩

/-- Moves by `move` elements, or to the end where that would leave the sequence. -/
def skip (c : PlainCursor S) (move : Int) : Reply (PlainCursor S) Unit :=
  let refusal : Notice := .skipLeaves move c.position
  match Position.add? c.position move with
  | none => ⟨(), c.moveTo c.length, [refusal]⟩
  | some target =>
      let sought := c.seek target
      if sought.answer.isSome then
        ⟨(), sought.cursor, []⟩
      else
        ⟨(), c.moveTo c.length, sought.notices ++ [refusal]⟩

section

variable [BEq α]

def perform (c : PlainCursor S) :
    Operation α → Except Fault (Reply (PlainCursor S) (Answer S α))
  | .position => .ok ⟨.position c.position, c, []⟩
  | .isEmpty => .ok ⟨.decided (c.length == 0), c, []⟩
  | .atEnd => .ok ⟨.decided c.atEnd, c, []⟩
  | .peek => .ok ⟨.element c.peek, c, []⟩
  | .current => .ok ⟨.element c.current, c, []⟩
  | .next => .ok ⟨.element c.peek, c.advance, []⟩
  | .demand =>
      match c.peek with
      | some element => .ok ⟨.demanded element, c.advance, []⟩
      | none => .ok ⟨.failed (.endOfStream c.position), c, []⟩
  | .accept value =>
      if c.peek.any (· == value) then
        .ok ⟨.decided true, c.advance, []⟩
      else
        .ok ⟨.decided false, c, []⟩
  | .nextMatches value => .ok ⟨.decided (c.peek.any (· == value)), c.advance, []⟩
  | .upTo value =>
      let (found, after) := c.scan (· == value)
      .ok ⟨.part (Sequence.ofList found.passed.toList), after, []⟩
  | .upToEnd =>
      let (found, after) := c.scan fun _ => false
      .ok ⟨.part (Sequence.ofList found.passed.toList), after, []⟩
  | .skipPast value =>
      let (found, after) := c.scan (· == value)
      if found.stopper?.isSome then
        let skipped := after.skip 1
        .ok ⟨.decided true, skipped.cursor, skipped.notices⟩
      else
        .ok ⟨.decided false, after, []⟩
  | .take count => do
      let start := c.position.toNat
      let stop := start + count
      let taken ← Sequence.slice c.sequence start stop
      let notices := if c.length < stop then [.clampedTake count start c.length] else []
      return ⟨.part taken, c.moveTo (min stop c.length : Nat), notices⟩
  | .remaining => do
      let rest ← Sequence.slice c.sequence (c.position + 1).toNat c.length
      return ⟨.part rest, c, []⟩
  | .contents => .ok ⟨.part c.sequence, c, []⟩
  | .reversed => .ok ⟨.reversed none, c, []⟩
  | .visitRemaining => do
      let rest ← Sequence.slice c.sequence (c.position + 1).toNat c.length
      return ⟨.visited (Sequence.toList rest), c, []⟩
  | .seek target => .ok ((c.seek target).map .sought)
  | .skip move => .ok ((c.skip move).map fun _ => .done)
  | .rewind => .ok ⟨.done, c.moveTo Cursor.beforeFirst, []⟩
  | .seekEnd => .ok ⟨.done, c.moveTo c.length, []⟩

def observe (reply : Reply (PlainCursor S) (Answer S α)) : Observation S α :=
  ⟨reply.answer, reply.notices, reply.cursor.position, reply.cursor.atEnd⟩

def run (c : PlainCursor S) :
    List (Operation α) → Except Fault (Reply (PlainCursor S) (List (Observation S α)))
  | [] => .ok ⟨[], c, []⟩
  | operation :: operations => do
      let reply ← c.perform operation
      let later ← reply.cursor.run operations
      return ⟨observe reply :: later.answer, later.cursor, reply.notices ++ later.notices⟩

theorem run_cons {c : PlainCursor S} {operation : Operation α}
    {operations : List (Operation α)} {reply : Reply (PlainCursor S) (Answer S α)}
    {later : Reply (PlainCursor S) (List (Observation S α))}
    (hreply : c.perform operation = .ok reply)
    (hlater : reply.cursor.run operations = .ok later) :
    c.run (operation :: operations) =
      .ok ⟨observe reply :: later.answer, later.cursor, reply.notices ++ later.notices⟩ := by
  rw [run, hreply]
  change (reply.cursor.run operations >>= _) = _
  rw [hlater]
  rfl

end

end PlainCursor

end SeqCursor
