import SeqCursor.Sequence.Lawful

/-!
# Indices and offsets name the same elements

An element has two names: its index, and the storage offset that its index is
resolved to.  The three ways to use an offset are inverse to each other.  Resolving
is strictly increasing, reading forward at the offset of an index reads the element
at the index and leads to the next offset, reading back from there finds it again,
and an offset that no index is resolved to reads nothing in either direction.
-/

namespace SeqCursor

open Sequence

variable {S α : Type} [Sequence S α]

/-- The offsets of a sequence whose storage ends at `storage`, and what is read
through them. -/
structure Sequence.Addresses (s : S) (storage : Nat) : Prop where
  offsetOf_first : offsetOf s 0 = 0
  offsetOf_lt : ∀ i j, i < j → j ≤ length s → offsetOf s i < offsetOf s j
  offsetOf_past : ∀ i, length s ≤ i → offsetOf s i = storage
  forward : ∀ i, i < length s → ∃ element, get? s i = some element ∧
    atOffset s (offsetOf s i) = .ok (some (element, offsetOf s (i + 1)))
  backward : ∀ i, i < length s → beforeOffset s (offsetOf s (i + 1)) = get? s i
  forward_eq_none_iff : ∀ offset, atOffset s offset = .ok none ↔
    ∀ i, i < length s → offset ≠ offsetOf s i
  backward_eq_none_iff : ∀ offset, beforeOffset s offset = none ↔
    ∀ i, 1 ≤ i → i ≤ length s → offset ≠ offsetOf s i
  elements : (toList s).map some = (List.range (length s)).map (get? s)
  isEmpty_iff : isEmpty s = true ↔ length s = 0

section

variable [LawfulSequence S α] {s : S}

theorem Sequence.get?_of_lt {index : Nat} (hindex : index < length s) :
    ∃ element, get? s index = some element := by
  rw [LawfulSequence.length_eq] at hindex
  exact ⟨(toList s)[index], by rw [LawfulSequence.get?_eq, List.getElem?_eq_getElem hindex]⟩

theorem Sequence.map_some_toList (s : S) :
    (toList s).map some = (List.range (length s)).map (get? s) := by
  apply List.ext_getElem
  · simp [LawfulSequence.length_eq]
  · intro index hleft hright
    have hindex : index < (toList s).length := by simpa using hleft
    simp [LawfulSequence.get?_eq, List.getElem?_eq_getElem hindex]

theorem Sequence.isEmpty_iff_length_eq_zero (s : S) : isEmpty s = true ↔ length s = 0 := by
  rw [LawfulSequence.isEmpty_eq, LawfulSequence.length_eq, List.isEmpty_iff,
    List.length_eq_zero_iff]

/-- All but the rejection of foreign offsets follows from the laws of a sequence. -/
theorem Sequence.addresses_of_eq_none_iff {storage : Nat}
    (hstorage : offsetOf s (length s) = storage) (hbound : storage ≤ maxIndex)
    (hforward : ∀ offset, atOffset s offset = .ok none ↔
      ∀ i < length s, offset ≠ offsetOf s i)
    (hbackward : ∀ offset, beforeOffset s offset = none ↔
      ∀ i < length s, offset ≠ offsetOf s (i + 1)) :
    Addresses s storage := by
  constructor
  · exact LawfulSequence.offsetOf_zero s
  · intro i j hij hj
    exact LawfulSequence.offsetOf_lt_offsetOf hij hj
  · intro i hi
    rw [LawfulSequence.offsetOf_of_length_le hi, hstorage]
  · intro i hi
    obtain ⟨element, helement⟩ := get?_of_lt hi
    have hreach : offsetOf s (i + 1) ≤ maxIndex := by
      rw [← hstorage] at hbound
      exact Nat.le_trans (offsetOf_le_storage s (i + 1)) hbound
    refine ⟨element, helement, ?_⟩
    rw [LawfulSequence.atOffset_offsetOf hreach, ← LawfulSequence.get?_eq, helement]
    rfl
  · intro i hi
    rw [LawfulSequence.beforeOffset_offsetOf_succ hi, LawfulSequence.get?_eq]
  · exact hforward
  · intro offset
    rw [hbackward]
    constructor
    · intro hother i hfirst hi
      have hsame := hother (i - 1) (by omega)
      rwa [Nat.sub_add_cancel hfirst] at hsame
    · intro hother i hi
      exact hother (i + 1) (Nat.le_add_left 1 i) hi
  · exact map_some_toList s
  · exact isEmpty_iff_length_eq_zero s

end

theorem Text.addresses {s : String} (hstorage : s.utf8ByteSize ≤ maxIndex) :
    Addresses s s.utf8ByteSize :=
  addresses_of_eq_none_iff (offsetOf_of_length_le (Nat.le_refl s.length)) hstorage
    (atOffset_eq_none_iff s) (beforeOffset_eq_none_iff s)

theorem Indexed.addresses {β : Type} {xs : Array β} (hsize : xs.size ≤ maxIndex) :
    Addresses xs xs.size :=
  addresses_of_eq_none_iff (offsetOf_of_le (Nat.le_refl xs.size)) hsize
    (atOffset_eq_none_iff xs) (beforeOffset_eq_none_iff xs)

/-- On text, whose offsets count the bytes of characters of one to four bytes, and on
arrays, whose offsets are indices, the offsets of the elements are exactly the offsets
that something can be read through, and reading goes by index. -/
theorem offsets_name_elements :
    (∀ s : String, s.utf8ByteSize ≤ maxIndex → Addresses s s.utf8ByteSize) ∧
    (∀ {β : Type} (xs : Array β), xs.size ≤ maxIndex → Addresses xs xs.size) :=
  ⟨fun _ => Text.addresses, fun _ => Indexed.addresses⟩

/-- Characters of one, two, four and one bytes; and three numbers. -/
theorem offsets_name_elements_mixed_widths :
    "aé🦀b".utf8ByteSize ≤ maxIndex ∧ Addresses "aé🦀b" 8 ∧
    (#[10, 20, 30] : Array Nat).size ≤ maxIndex ∧ Addresses #[10, 20, 30] 3 :=
  ⟨by decide, offsets_name_elements.1 "aé🦀b" (by decide), by decide,
    offsets_name_elements.2 #[10, 20, 30] (by decide)⟩

end SeqCursor
