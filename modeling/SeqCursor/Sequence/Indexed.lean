import SeqCursor.Sequence.Basic

/-!
# Arrays as sequences

Storage offsets of an array are its indices, and a range is clamped before the
array is cut: first its end to the size, then its start to that end.
-/

namespace SeqCursor.Indexed

variable {α : Type}

/-- A half-open range with its end clamped to `length` and its start to that. -/
def clampRange (start stop length : Nat) : Nat × Nat :=
  (min start (min stop length), min stop length)

/-- The elements from `start` up to `stop`, for `start ≤ stop ≤ xs.size`. -/
def cut (xs : Array α) (start stop : Nat) : Except Fault (Array α) :=
  if start ≤ stop ∧ stop ≤ xs.size then
    .ok (xs.extract start stop)
  else
    .error (.badCut start stop)

def slice (xs : Array α) (start stop : Nat) : Except Fault (Array α) :=
  let range := clampRange start stop xs.size
  cut xs range.1 range.2

instance : Sequence (Array α) α where
  length xs := xs.size
  get? xs index := xs[index]?
  slice := slice
  toList xs := xs.toList
  ofList elements := elements.toArray

end SeqCursor.Indexed
