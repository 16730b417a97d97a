import SeqCursor.Bounds

/-!
# Sequences

An ordered, zero-indexed, finite collection that a cursor can walk over.
Elements are addressed in two ways: by index, and by the offset at which they
lie in storage.  An index is resolved to an offset once per jump; after that each
offset leads to the next one, so elements of varying width are read in linear
time.  For collections addressed by index alone the two coincide, and the
defaults of the class say so.
-/

namespace SeqCursor

/-- A collection `S` with elements in `α`, read by index and by storage offset. -/
class Sequence (S : Type) (α : outParam Type) where
  /-- The number of elements. -/
  length : S → Nat
  /-- Whether there are no elements. -/
  isEmpty : S → Bool := fun s => length s == 0
  /-- The element at an index below the length. -/
  get? : S → Nat → Option α
  /-- The elements with indices in a half-open range, whose ends are clamped to
  the length.  An inverted range holds none. -/
  slice : S → Nat → Nat → Except Fault S
  /-- All elements in order. -/
  toList : S → List α
  /-- The sequence with the given elements. -/
  ofList : List α → S
  /-- The storage offset of the element at an index.  Indices from the length on
  lead to the end of storage. -/
  offsetOf : S → Nat → Nat := fun s index => min index (length s)
  /-- The element stored at an offset, and the offset of the one behind it. -/
  atOffset : S → Nat → Except Fault (Option (α × Nat)) := fun s offset =>
    match get? s offset with
    | none => .ok none
    | some element => do
        let following ← Offset.advance offset 1
        return some (element, following)
  /-- The element stored immediately before an offset. -/
  beforeOffset : S → Nat → Option α := fun s offset =>
    match offset with
    | 0 => none
    | index + 1 => get? s index

namespace Sequence

variable {S α : Type} [Sequence S α]

/-- A chain of nested slices: each range counts within the slice before it. -/
def sliceWithin (s : S) (ranges : List (Nat × Nat)) : Except Fault S :=
  ranges.foldlM (fun part range => slice part range.1 range.2) s

end Sequence

end SeqCursor
