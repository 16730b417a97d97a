/-!
# Keyed elements

Elements that are found by their key: two are equal when their keys are, whatever
they carry.  A search with one of them therefore answers the stored element, which
may carry something else.
-/

namespace SeqCursor

structure Keyed where
  key : Int
  value : String
  deriving DecidableEq, Repr

namespace Keyed

/-- Equality of keys; the values are ignored. -/
instance : BEq Keyed where
  beq left right := left.key == right.key

@[simp]
theorem beq_eq (left right : Keyed) : (left == right) = (left.key == right.key) := rfl

end Keyed

end SeqCursor
