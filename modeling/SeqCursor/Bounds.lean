/-!
# Machine ranges

Indices, lengths, counts and storage offsets are naturals up to `maxIndex`;
positions and relative moves are integers between `minPosition` and
`maxPosition`.  Values are carried by `Nat` and `Int`, and each sum that may leave
its range goes through a checked operation of this module, and so does each position
that is used as an index.  A check that fails is a `Fault`: it marks a defect of the
caller, never an ordinary end of input.

The other way, an index within a sequence counts as a position as it is, since
cursors are used on sequences shorter than `maxPosition`.  `Position.ofIndex?` is for
indices that may come from anywhere.
-/

namespace SeqCursor

/-- The largest index, length, count or storage offset: 64 bits, no sign. -/
def maxIndex : Nat := 18446744073709551615

/-- The largest position: 64 bits, one of them the sign. -/
def maxPosition : Int := 9223372036854775807

/-- The smallest position that can be written down at all. -/
def minPosition : Int := -9223372036854775808

/-- A step that the machine ranges or the storage of a sequence do not admit. -/
inductive Fault where
  /-- The position after `position` is above `maxPosition`. -/
  | positionOverflow (position : Int)
  /-- The offset `width` units behind `offset` is above `maxIndex`. -/
  | offsetOverflow (offset width : Nat)
  /-- A position before the first element was used as an index. -/
  | negativeIndex (position : Int)
  /-- Storage was cut from `start` to `stop`, which are out of order, out of
  range or inside an element. -/
  | badCut (start stop : Nat)
  /-- No cursor is kept under `slot`. -/
  | unknownSlot (slot : Nat)
  deriving DecidableEq, Repr

namespace Position

/-- The sum of a position and a relative move, where the range admits it. -/
def add? (position move : Int) : Option Int :=
  if minPosition ≤ position + move ∧ position + move ≤ maxPosition then
    some (position + move)
  else
    none

/-- The position one further on. -/
def succ (position : Int) : Except Fault Int :=
  if position + 1 ≤ maxPosition then
    .ok (position + 1)
  else
    .error (.positionOverflow position)

/-- The index that a position names. -/
def toIndex (position : Int) : Except Fault Nat :=
  if 0 ≤ position then
    .ok position.toNat
  else
    .error (.negativeIndex position)

/-- The position that an index counts as, where the range admits it. -/
def ofIndex? (index : Nat) : Option Int :=
  if (index : Int) ≤ maxPosition then
    some index
  else
    none

theorem succ_eq_ok_iff {position next : Int} :
    succ position = .ok next ↔ next = position + 1 ∧ position + 1 ≤ maxPosition := by
  simp only [succ]
  split <;> simp_all [eq_comm]

theorem succ_of_lt {position : Int} (h : position < maxPosition) :
    succ position = .ok (position + 1) :=
  succ_eq_ok_iff.2 ⟨rfl, h⟩

theorem toIndex_of_nonneg {position : Int} (h : 0 ≤ position) :
    toIndex position = .ok position.toNat :=
  if_pos h

/-- A negative position held at the first index names that index. -/
theorem toIndex_max_zero (position : Int) :
    toIndex (max position 0) = .ok position.toNat := by
  rw [toIndex_of_nonneg (Int.le_max_right position 0), ← Int.toNat_eq_max, Int.toNat_natCast]

theorem getD_ofIndex? (index : Nat) :
    (ofIndex? index).getD maxPosition = min (index : Int) maxPosition := by
  rw [ofIndex?, Int.min_def]
  split <;> rfl

end Position

namespace Offset

/-- The offset behind an element of the given width. -/
def advance (offset width : Nat) : Except Fault Nat :=
  if offset + width ≤ maxIndex then
    .ok (offset + width)
  else
    .error (.offsetOverflow offset width)

theorem advance_of_le {offset width : Nat} (h : offset + width ≤ maxIndex) :
    advance offset width = .ok (offset + width) :=
  if_pos h

end Offset

/-- The sum of an index and a count, held at `maxIndex` when it would pass it. -/
def Index.addSaturating (index count : Nat) : Nat :=
  min (index + count) maxIndex

end SeqCursor
