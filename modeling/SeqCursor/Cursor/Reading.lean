import SeqCursor.Cursor.Movement
import SeqCursor.ReadError

/-!
# Reading through a cursor

Single reads answer the next element and step onto it.  Scans read on until an
element equal to a given value; that element is read too and belongs to neither
side.  Blocks answer a stretch of the sequence itself.

Elements are compared by `==` with the stored element on the left.  Nothing is
assumed of that test: a stored element may differ from itself, and one that
equals the value sought may still be told apart from it.
-/

namespace SeqCursor

/-- What a scan came across: the elements it passed, and the one that stopped it. -/
structure Scan (α : Type) where
  passed : Array α
  stopper? : Option α
  deriving DecidableEq, Repr

namespace Cursor

variable {S α : Type} [Sequence S α]

/-- Steps forward and answers the element stepped on.  The step from the last
element leads past it and answers none; from there on the cursor stays. -/
def next (c : Cursor S) : Except Fault (Reply (Cursor S) (Option α)) :=
  if c.atEnd then
    .ok ⟨none, c, []⟩
  else do
    let position ← Position.succ c.position
    match ← c.ahead with
    | none => return ⟨none, { c with position := position }, []⟩
    | some (element, following) =>
        return ⟨some element, { c with position := position, offset := following }, []⟩

/-- Reads the next element, or fails without moving when nothing is left. -/
def demand (c : Cursor S) : Except Fault (Reply (Cursor S) (Except ReadError α)) := do
  let read ← c.next
  match read.answer with
  | some element => return ⟨.ok element, read.cursor, []⟩
  | none => return ⟨.error (.endOfStream c.position), c, []⟩

/-- Reads the next element only if it equals `value`, and answers whether it did. -/
def accept [BEq α] (c : Cursor S) (value : α) : Except Fault (Reply (Cursor S) Bool) :=
  if c.atEnd then
    .ok ⟨false, c, []⟩
  else do
    match ← c.ahead with
    | none => return ⟨false, c, []⟩
    | some (element, following) =>
        if element == value then
          let position ← Position.succ c.position
          return ⟨true, { c with position := position, offset := following }, []⟩
        else
          return ⟨false, c, []⟩

/-- Reads the next element in any case, and answers whether it equals `value`. -/
def nextMatches [BEq α] (c : Cursor S) (value : α) : Except Fault (Reply (Cursor S) Bool) := do
  let read ← c.next
  return read.map fun element? => element?.any (· == value)

theorem position_of_next {c : Cursor S} {read : Reply (Cursor S) (Option α)}
    (hend : c.atEnd = false) (hread : c.next = .ok read) :
    read.cursor.position = c.position + 1 ∧ c.position + 1 ≤ maxPosition := by
  rw [next, hend] at hread
  cases hstep : Position.succ c.position with
  | error fault => simp [hstep, bind, Except.bind] at hread
  | ok position =>
      obtain ⟨rfl, hbound⟩ := Position.succ_eq_ok_iff.mp hstep
      cases hahead : c.ahead with
      | error fault => simp [hstep, hahead, bind, Except.bind] at hread
      | ok found =>
          cases found <;>
            simp [hstep, hahead, bind, Except.bind, pure, Except.pure] at hread <;>
            subst hread <;> exact ⟨rfl, hbound⟩

/-- The number of positions above that of a cursor. -/
def headroom (c : Cursor S) : Nat :=
  (maxPosition - c.position).toNat

theorem headroom_of_next {c : Cursor S} {read : Reply (Cursor S) (Option α)}
    (hend : ¬ c.atEnd) (hread : c.next = .ok read) :
    read.cursor.headroom < c.headroom := by
  have hstep := position_of_next (by simpa using hend) hread
  simp only [headroom]
  omega

/-- Reads on until an element satisfies `stops`, or to the end.  Elements read
before are added to `passed`. -/
def scanFrom (stops : α → Bool) (passed : Array α) (c : Cursor S) :
    Except Fault (Reply (Cursor S) (Scan α)) :=
  if hend : c.atEnd then
    .ok ⟨⟨passed, none⟩, c, []⟩
  else
    match hread : c.next with
    | .error fault => .error fault
    | .ok ⟨none, after, _⟩ =>
        have : after.headroom < c.headroom := headroom_of_next hend hread
        scanFrom stops passed after
    | .ok ⟨some element, after, _⟩ =>
        have : after.headroom < c.headroom := headroom_of_next hend hread
        if stops element then
          .ok ⟨⟨passed, some element⟩, after, []⟩
        else
          scanFrom stops (passed.push element) after
termination_by c.headroom

theorem scanFrom_of_atEnd (stops : α → Bool) (passed : Array α) {c : Cursor S}
    (hend : c.atEnd = true) : scanFrom stops passed c = .ok ⟨⟨passed, none⟩, c, []⟩ := by
  rw [scanFrom, dif_pos hend]

theorem scanFrom_of_next (stops : α → Bool) (passed : Array α) {c : Cursor S}
    {read : Reply (Cursor S) (Option α)} (hend : c.atEnd = false) (hread : c.next = .ok read) :
    scanFrom stops passed c =
      match read.answer with
      | none => scanFrom stops passed read.cursor
      | some element =>
          if stops element then
            .ok ⟨⟨passed, some element⟩, read.cursor, []⟩
          else
            scanFrom stops (passed.push element) read.cursor := by
  rw [scanFrom, dif_neg (by simp [hend])]
  split
  · next h => simp [h] at hread
  · next h => cases h.symm.trans hread; rfl
  · next h => cases h.symm.trans hread; rfl

/-- Reads on until an element satisfies `stops`, or to the end. -/
def scan (c : Cursor S) (stops : α → Bool) : Except Fault (Reply (Cursor S) (Scan α)) :=
  scanFrom stops #[] c

/-- Reads up to the next element equal to `value`, which is read too, and answers
the elements before it.  Where no element equals it, reads everything. -/
def upTo [BEq α] (c : Cursor S) (value : α) : Except Fault (Reply (Cursor S) S) := do
  let found ← c.scan (· == value)
  return found.map fun scan => Sequence.ofList scan.passed.toList

/-- Reads everything that is left. -/
def upToEnd (c : Cursor S) : Except Fault (Reply (Cursor S) S) := do
  let found ← c.scan fun _ => false
  return found.map fun scan => Sequence.ofList scan.passed.toList

/-- Reads up to the next element equal to `value` and skips one more, and answers
whether there was such an element.  A search in vain reads everything. -/
def skipPast [BEq α] (c : Cursor S) (value : α) : Except Fault (Reply (Cursor S) Bool) := do
  let found ← c.scan (· == value)
  match found.answer.stopper? with
  | none => return found.map fun _ => false
  | some _ =>
      let skipped ← found.cursor.skip 1
      return skipped.map fun _ => true

/-- Answers the next `count` elements, or those that are left, and moves to the
end of them.  A cursor before the first element takes from the first one on, any
other from its position on, so that blocks read one after the other abut. -/
def take (c : Cursor S) (count : Nat) : Except Fault (Reply (Cursor S) S) := do
  let start ← Position.toIndex (max c.position 0)
  let stop := Index.addSaturating start count
  let notices := if c.length < stop then [.clampedTake count start c.length] else []
  let moved ← c.moveTo (min stop c.length : Nat)
  let taken ← Sequence.slice c.sequence start stop
  return ⟨taken, moved, notices⟩

end Cursor

end SeqCursor
