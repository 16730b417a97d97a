import SeqCursor.Sequence.Lawful

/-!
# The algebra of slices

A slice holds the elements of its range as far as there are any, whatever its bounds.
So a slice of a slice is a slice of the whole, with the inner bounds moved by the
outer start and held at the outer stop; adjacent slices lie behind one another in
storage; and offsets within a slice count on from the offset of its start.
-/

namespace SeqCursor

open Sequence

variable {S α : Type} [Sequence S α]

/-- A range within a range, counted from where the outer one starts. -/
def Sequence.nest (outer inner : Nat × Nat) : Nat × Nat :=
  (outer.1 + inner.1, min (outer.1 + inner.2) outer.2)

/-- The laws of slices of a sequence, of which `storage` is what it takes up. -/
structure Sequence.SliceLaws {B : Type} [Append B] (storage : S → B) (s : S) : Prop where
  /-- A slice holds the elements of its range, and its elements are all there is to it. -/
  elements : ∀ start stop, ∃ part, slice s start stop = .ok part ∧
    toList part = ((toList s).take (min stop (length s))).drop start ∧
    ofList (toList part) = part
  nested : ∀ start stop first last,
    (slice s start stop >>= fun part => slice part first last) =
      slice s (start + first) (min (start + last) stop)
  chained : ∀ outer inner,
    sliceWithin s (outer :: inner) =
      slice s (inner.foldl nest outer).1 (inner.foldl nest outer).2
  adjacent : ∀ i j, i ≤ j → ∃ left middle right, slice s 0 i = .ok left ∧
    slice s i j = .ok middle ∧ slice s j (length s) = .ok right ∧
    storage left ++ storage middle ++ storage right = storage s
  rebased : ∀ start stop part index, start ≤ stop → slice s start stop = .ok part →
    index ≤ length part → offsetOf s start + offsetOf part index = offsetOf s (start + index)

/-! ## Lists -/

theorem drop_take_drop_take (elements : List α) (start stop first last : Nat) :
    (((elements.take stop).drop start).take last).drop first =
      (elements.take (min (start + last) stop)).drop (start + first) := by
  rw [List.take_drop, List.drop_drop, List.take_take]

theorem take_append_drop_take_append_drop (elements : List α) {i j : Nat} (h : i ≤ j) :
    elements.take i ++ (elements.take j).drop i ++ elements.drop j = elements := by
  calc
    elements.take i ++ (elements.take j).drop i ++ elements.drop j =
        (elements.take j).take i ++ (elements.take j).drop i ++ elements.drop j := by
      rw [List.take_take, Nat.min_eq_left h]
    _ = elements.take j ++ elements.drop j := by rw [List.take_append_drop]
    _ = elements := List.take_append_drop j elements

/-! ## Slices of a lawful sequence -/

namespace Sequence

variable [LawfulSequence S α]

theorem slice_of_slice (s : S) (start stop first last : Nat) :
    (slice s start stop >>= fun part => slice part first last) =
      slice s (start + first) (min (start + last) stop) := by
  rw [LawfulSequence.slice_eq, LawfulSequence.slice_eq, ← drop_take_drop_take]
  change slice (ofList (((toList s).take stop).drop start) : S) first last = _
  rw [LawfulSequence.slice_eq, LawfulSequence.toList_ofList]

omit [LawfulSequence S α] in
theorem sliceWithin_cons (s : S) (range : Nat × Nat) (ranges : List (Nat × Nat)) :
    sliceWithin s (range :: ranges) =
      (slice s range.1 range.2 >>= fun part => sliceWithin part ranges) :=
  List.foldlM_cons

/-- A chain of slices is one slice, of the range that is left of the first one. -/
theorem sliceWithin_eq (s : S) (outer : Nat × Nat) (inner : List (Nat × Nat)) :
    sliceWithin s (outer :: inner) =
      slice s (inner.foldl nest outer).1 (inner.foldl nest outer).2 := by
  induction inner generalizing outer with
  | nil =>
      rw [sliceWithin_cons]
      exact bind_pure _
  | cons range inner ih =>
      calc
        sliceWithin s (outer :: range :: inner) =
            (slice s outer.1 outer.2 >>= fun part => slice part range.1 range.2) >>=
              fun part => sliceWithin part inner := by
          rw [sliceWithin_cons, bind_assoc]
          simp only [sliceWithin_cons]
        _ = sliceWithin s (nest outer range :: inner) := by
          rw [slice_of_slice, sliceWithin_cons]
          rfl
        _ = slice s (inner.foldl nest (nest outer range)).1
              (inner.foldl nest (nest outer range)).2 := ih (nest outer range)

theorem offsetOf_slice_of_le {s part : S} {start stop index : Nat} (hrange : start ≤ stop)
    (hpart : slice s start stop = .ok part) (hindex : index ≤ length part) :
    offsetOf s start + offsetOf part index = offsetOf s (start + index) := by
  rw [LawfulSequence.slice_eq, Except.ok.injEq] at hpart
  subst hpart
  rw [length_ofList, List.length_drop, List.length_take, ← LawfulSequence.length_eq] at hindex
  rcases Nat.le_total start (length s) with hstart | hstart
  · exact LawfulSequence.offsetOf_slice (by omega)
  · -- Nothing is left behind the end, and the slice ends where it starts.
    obtain rfl : index = 0 := by omega
    rw [LawfulSequence.offsetOf_zero, Nat.add_zero, Nat.add_zero]

example : sliceWithin "aé🦀b" [(1, 9), (1, 3), (0, 1)] = .ok "🦀" := by
  rfl

/-- All laws of slices follow from the laws of a sequence, where lists that are
joined are laid out behind one another in storage. -/
theorem sliceLaws_of_append {B : Type} [Append B] {storage : S → B}
    (hstorage : ∀ front back : List α,
      storage (ofList (front ++ back)) = storage (ofList front) ++ storage (ofList back))
    (s : S) : SliceLaws storage s := by
  constructor
  · intro start stop
    refine ⟨_, LawfulSequence.slice_eq s start stop, ?_, ?_⟩
    · rw [LawfulSequence.toList_ofList, LawfulSequence.length_eq, ← List.take_eq_take_min]
    · rw [LawfulSequence.toList_ofList]
  · exact slice_of_slice s
  · exact sliceWithin_eq s
  · intro i j hij
    refine ⟨_, _, _, LawfulSequence.slice_eq s 0 i, LawfulSequence.slice_eq s i j,
      LawfulSequence.slice_eq s j (length s), ?_⟩
    rw [← hstorage, ← hstorage, List.drop_zero, LawfulSequence.length_eq, List.take_length,
      take_append_drop_take_append_drop _ hij, LawfulSequence.ofList_toList]
  · intro start stop part index hrange hpart hindex
    exact offsetOf_slice_of_le hrange hpart hindex

end Sequence

/-- On text, cut at byte offsets and laid out in bytes, and on arrays, cut at indices,
slices keep the same laws for all bounds, inverted and overshooting ones included. -/
theorem slices_compose :
    (∀ s : String, SliceLaws String.toByteArray s) ∧
    (∀ {β : Type} (xs : Array β), SliceLaws id xs) := by
  constructor
  · intro s
    apply sliceLaws_of_append
    intro front back
    exact (congrArg String.toByteArray (String.ofList_append ..)).trans
      (String.toByteArray_append ..)
  · intro β xs
    apply sliceLaws_of_append
    intro front back
    exact (List.append_toArray front back).symm

end SeqCursor
