import SeqCursor.Bounds

/-!
# Read errors

Moving and reading never fail: past either end they answer "nothing" or "no".
Only the operations that a caller uses where running out of input is an error
answer one of these.
-/

namespace SeqCursor

/-- Why an element or a range could not be provided. -/
inductive ReadError where
  /-- Nothing is left behind `position`. -/
  | endOfStream (position : Int)
  /-- The range from `start` to `stop` is inverted or ends behind `length`. -/
  | rangeOutOfBounds (start stop length : Nat)
  deriving DecidableEq, Repr

namespace ReadError

/-- Where the error arose.  The start of a range that is no position counts as the
largest position. -/
def position : ReadError → Int
  | endOfStream position => position
  | rangeOutOfBounds start _ _ => (Position.ofIndex? start).getD maxPosition

def message : ReadError → String
  | endOfStream position => s!"Unexpected end of stream after position {position}"
  | rangeOutOfBounds start stop length =>
      s!"Range {start}..{stop} is out of bounds for a sequence of length {length}"

theorem position_rangeOutOfBounds (start stop length : Nat) :
    (rangeOutOfBounds start stop length).position = min (start : Int) maxPosition :=
  Position.getD_ofIndex? start

end ReadError

end SeqCursor
