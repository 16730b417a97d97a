import SeqCursor.Sequence.Indexed
import SeqCursor.Sequence.Text.Lemmas

/-!
# Lawful sequences

All that a cursor relies on, stated with the list of elements as the only view of a
sequence: indices count that list, offsets grow with the index and stop growing at
the end of storage, and reading through an offset reads at the index that leads to
it.  Arrays and text keep these laws by different means: for arrays offsets are
indices, for text they are sums of byte widths.
-/

namespace SeqCursor

open Sequence

/-- A sequence whose indices and offsets agree with its list of elements. -/
class LawfulSequence (S : Type) (α : outParam Type) [Sequence S α] : Prop where
  toList_ofList (elements : List α) : toList (ofList elements : S) = elements
  ofList_toList (s : S) : ofList (toList s) = s
  length_eq (s : S) : length s = (toList s).length
  isEmpty_eq (s : S) : isEmpty s = (toList s).isEmpty
  get?_eq (s : S) (index : Nat) : get? s index = (toList s)[index]?
  slice_eq (s : S) (start stop : Nat) :
    slice s start stop = .ok (ofList (((toList s).take stop).drop start))
  offsetOf_zero (s : S) : offsetOf s 0 = 0
  offsetOf_lt_offsetOf {s : S} {i j : Nat} :
    i < j → j ≤ length s → offsetOf s i < offsetOf s j
  offsetOf_of_length_le {s : S} {index : Nat} :
    length s ≤ index → offsetOf s index = offsetOf s (length s)
  atOffset_offsetOf {s : S} {index : Nat} : offsetOf s (index + 1) ≤ maxIndex →
    atOffset s (offsetOf s index) =
      .ok ((toList s)[index]?.map fun element => (element, offsetOf s (index + 1)))
  beforeOffset_offsetOf_succ {s : S} {index : Nat} : index < length s →
    beforeOffset s (offsetOf s (index + 1)) = (toList s)[index]?
  offsetOf_slice {s : S} {start stop index : Nat} : start + index ≤ min stop (length s) →
    offsetOf s start + offsetOf (ofList (((toList s).take stop).drop start) : S) index =
      offsetOf s (start + index)

namespace Sequence

/-- A sequence whose length is below every admissible position but the last, and
whose storage is within reach of an offset, as all storage that a machine has is. -/
structure Addressable {S α : Type} [Sequence S α] (s : S) : Prop where
  length_lt : (length s : Int) < maxPosition
  storage_le : offsetOf s (length s) ≤ maxIndex

section

variable {S α : Type} [Sequence S α] [LawfulSequence S α] {s : S}

theorem length_ofList (elements : List α) : length (ofList elements : S) = elements.length := by
  rw [LawfulSequence.length_eq, LawfulSequence.toList_ofList]

/-- The slice of a number of elements from an index on. -/
theorem slice_add (s : S) (start count : Nat) :
    slice s start (start + count) = .ok (ofList (((toList s).drop start).take count)) := by
  rw [LawfulSequence.slice_eq, List.drop_take, Nat.add_sub_cancel_left]

theorem offsetOf_succ_of_length_le {index : Nat} (hindex : length s ≤ index) :
    offsetOf s (index + 1) = offsetOf s index := by
  rw [LawfulSequence.offsetOf_of_length_le hindex,
    LawfulSequence.offsetOf_of_length_le (Nat.le_succ_of_le hindex)]

theorem offsetOf_le_storage (s : S) (index : Nat) : offsetOf s index ≤ offsetOf s (length s) := by
  rcases Nat.lt_or_ge index (length s) with hindex | hindex
  · exact Nat.le_of_lt (LawfulSequence.offsetOf_lt_offsetOf hindex (Nat.le_refl _))
  · exact Nat.le_of_eq (LawfulSequence.offsetOf_of_length_le hindex)

namespace Addressable

theorem offsetOf_le (hs : Addressable s) (index : Nat) : offsetOf s index ≤ maxIndex :=
  Nat.le_trans (offsetOf_le_storage s index) hs.storage_le

/-- A part of an addressable sequence takes up no more storage than the whole. -/
theorem slice (hs : Addressable s) (start stop : Nat) :
    Addressable (ofList (((toList s).take stop).drop start) : S) := by
  have hlength : length (ofList (((toList s).take stop).drop start) : S) =
      min stop (length s) - start := by
    rw [length_ofList, List.length_drop, List.length_take, ← LawfulSequence.length_eq]
  constructor
  · have hbound := hs.length_lt
    omega
  · rw [hlength]
    rcases Nat.le_total start (min stop (length s)) with hstart | hstart
    · have hsum : offsetOf s start + offsetOf (ofList (((toList s).take stop).drop start) : S)
          (min stop (length s) - start) = offsetOf s (start + (min stop (length s) - start)) :=
        LawfulSequence.offsetOf_slice (by omega)
      have hwhole := hs.offsetOf_le (start + (min stop (length s) - start))
      omega
    · rw [Nat.sub_eq_zero_of_le hstart, LawfulSequence.offsetOf_zero]
      exact Nat.zero_le _

end Addressable

end

end Sequence

namespace Indexed

variable {α : Type}

theorem slice_eq (xs : Array α) (start stop : Nat) :
    slice xs start stop = .ok ((xs.toList.take stop).drop start).toArray := by
  have hrange : min start (min stop xs.size) ≤ min stop xs.size ∧ min stop xs.size ≤ xs.size :=
    ⟨Nat.min_le_right _ _, Nat.min_le_right _ _⟩
  simp only [slice, clampRange, cut, hrange, and_self, if_true, Except.ok.injEq]
  apply Array.toList_inj.1
  simp only [Array.toList_extract, List.extract_eq_take_drop]
  apply List.ext_getElem?
  intro index
  simp only [List.getElem?_take, List.getElem?_drop]
  have hsize : xs.toList.length = xs.size := rfl
  by_cases hbelow : min start (min stop xs.size) + index < min stop xs.size
  · have hstart : min start (min stop xs.size) = start := by omega
    rw [if_pos (by omega), if_pos (by omega), hstart]
  · rw [if_neg (by omega)]
    split
    · rw [List.getElem?_eq_none (by omega)]
    · rfl

instance : LawfulSequence (Array α) α where
  toList_ofList _ := rfl
  ofList_toList _ := rfl
  length_eq _ := rfl
  isEmpty_eq xs := by
    cases xs with
    | mk elements => cases elements <;> rfl
  get?_eq xs index := (Array.getElem?_toList ..).symm
  slice_eq := slice_eq
  offsetOf_zero xs := Nat.zero_min _
  offsetOf_lt_offsetOf {xs i j} hij hj := by
    change min i xs.size < min j xs.size
    change j ≤ xs.size at hj
    omega
  offsetOf_of_length_le {xs index} h := by
    change min index xs.size = min xs.size xs.size
    change xs.size ≤ index at h
    omega
  atOffset_offsetOf {xs index} h := by
    change (match xs[min index xs.size]? with
      | none => .ok none
      | some element => do
          let following ← Offset.advance (min index xs.size) 1
          return some (element, following)) =
        Except.ok (xs.toList[index]?.map fun element => (element, min (index + 1) xs.size))
    change min (index + 1) xs.size ≤ maxIndex at h
    by_cases hindex : index < xs.size
    · rw [Nat.min_eq_left (by omega), Nat.min_eq_left (by omega), Array.getElem?_toList,
        Array.getElem?_eq_getElem hindex, Offset.advance_of_le (by omega)]
      rfl
    · rw [Nat.min_eq_right (by omega), Array.getElem?_toList, Array.getElem?_eq_none (by omega),
        Array.getElem?_eq_none (by omega)]
      rfl
  beforeOffset_offsetOf_succ {xs index} h := by
    change index < xs.size at h
    change (match min (index + 1) xs.size with
      | 0 => none
      | index + 1 => xs[index]?) = xs.toList[index]?
    rw [Nat.min_eq_left (by omega), Array.getElem?_toList]
  offsetOf_slice {xs start stop index} h := by
    change start + index ≤ min stop xs.size at h
    change min start xs.size + min index ((xs.toList.take stop).drop start).length =
      min (start + index) xs.size
    rw [List.length_drop, List.length_take, Array.length_toList]
    omega

theorem addressable {xs : Array α} (hsize : (xs.size : Int) < maxPosition) :
    Addressable xs := by
  refine ⟨hsize, ?_⟩
  change min xs.size xs.size ≤ maxIndex
  simp only [maxPosition] at hsize
  simp only [maxIndex]
  omega

section

variable {xs : Array α}

theorem offsetOf_of_le {index : Nat} (hindex : index ≤ xs.size) : offsetOf xs index = index :=
  Nat.min_eq_left hindex

theorem atOffset_of_lt {offset : Nat} (hoffset : offset < xs.size) :
    atOffset xs offset =
      (Offset.advance offset 1).map fun following => some (xs[offset], following) := by
  change (match xs[offset]? with | none => _ | some element => _) = _
  rw [Array.getElem?_eq_getElem hoffset]
  cases Offset.advance offset 1 <;> rfl

theorem atOffset_of_size_le {offset : Nat} (hoffset : xs.size ≤ offset) :
    atOffset xs offset = .ok none := by
  change (match xs[offset]? with | none => _ | some element => _) = _
  rw [Array.getElem?_eq_none hoffset]

theorem atOffset_eq_none_iff (xs : Array α) (offset : Nat) :
    atOffset xs offset = .ok none ↔ ∀ index < xs.size, offset ≠ offsetOf xs index := by
  constructor
  · rintro hnone index hindex rfl
    rw [offsetOf_of_le (Nat.le_of_lt hindex), atOffset_of_lt hindex] at hnone
    cases hstep : Offset.advance index 1 <;> simp [hstep, Except.map] at hnone
  · intro hother
    apply atOffset_of_size_le
    apply Nat.le_of_not_lt
    intro hbefore
    exact hother offset hbefore (offsetOf_of_le (Nat.le_of_lt hbefore)).symm

theorem beforeOffset_eq_none_iff (xs : Array α) (offset : Nat) :
    beforeOffset xs offset = none ↔ ∀ index < xs.size, offset ≠ offsetOf xs (index + 1) := by
  constructor
  · rintro hnone index hindex rfl
    rw [LawfulSequence.beforeOffset_offsetOf_succ hindex, List.getElem?_eq_none_iff] at hnone
    exact absurd hindex (Nat.not_lt.mpr hnone)
  · intro hother
    cases offset with
    | zero => rfl
    | succ index =>
        apply Array.getElem?_eq_none
        apply Nat.le_of_not_lt
        intro hbefore
        exact hother index hbefore (offsetOf_of_le hbefore).symm

end

end Indexed

namespace Text

instance : LawfulSequence String Char where
  toList_ofList _ := String.toList_ofList
  ofList_toList _ := String.ofList_toList
  length_eq s := String.length_toList.symm
  isEmpty_eq s := by
    change s.isEmpty = s.toList.isEmpty
    rw [Bool.eq_iff_iff, String.isEmpty_iff, List.isEmpty_iff, String.toList_eq_nil_iff]
  get?_eq _ _ := rfl
  slice_eq := slice_eq
  offsetOf_zero := offsetOf_zero
  offsetOf_lt_offsetOf := offsetOf_lt_offsetOf
  offsetOf_of_length_le {s index} h := by
    change offsetOf s index = offsetOf s s.length
    rw [offsetOf_of_length_le h, offsetOf_of_length_le (Nat.le_refl s.length)]
  atOffset_offsetOf {s index} h := by
    change atOffset s (offsetOf s index) =
      .ok (s.toList[index]?.map fun c => (c, offsetOf s (index + 1)))
    rw [atOffset_offsetOf]
    cases hc : s.toList[index]? with
    | none => rfl
    | some c =>
        have hstep := offsetOf_succ hc
        change offsetOf s (index + 1) ≤ maxIndex at h
        simp only [Offset.advance_of_le (hstep ▸ h), hstep]
        rfl
  beforeOffset_offsetOf_succ := beforeOffset_offsetOf_succ
  offsetOf_slice {_ _ _ _} h := offsetOf_slice h

theorem addressable {s : String} (hlength : (s.length : Int) < maxPosition)
    (hstorage : s.utf8ByteSize ≤ maxIndex) : Addressable s := by
  refine ⟨hlength, ?_⟩
  change offsetOf s s.length ≤ maxIndex
  rwa [offsetOf_of_length_le (Nat.le_refl s.length)]

/-- A text with characters of one to four bytes. -/
theorem addressable_mixed_widths : Addressable "aé🦀b" :=
  addressable (by decide) (by decide)

end Text

end SeqCursor
