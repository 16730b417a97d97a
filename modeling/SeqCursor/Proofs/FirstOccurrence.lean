import SeqCursor.Keyed
import SeqCursor.Proofs.Marks

/-!
# The first occurrence

A scan for a value stops at the least index behind the position whose element equals it.
What it answers is the slice up to there, although it was collected element by element;
where no element equals the value, it is all that was left.  Nothing is assumed of the
test for equality.
-/

namespace SeqCursor

open Sequence

variable {S α : Type} [Sequence S α]

section

variable [BEq α]

/-- `index` is the least one behind `position` at which an element equal to `value` is
stored. -/
structure Sequence.FirstBehind (s : S) (position : Int) (value : α) (index : Nat) : Prop where
  behind : position < index
  equal : (get? s index).any (· == value) = true
  earlier : ∀ i : Nat, position < i → i < index → (get? s i).any (· == value) = false

/-- No element equal to `value` is stored behind `position`. -/
def Sequence.NoneBehind (s : S) (position : Int) (value : α) : Prop :=
  ∀ index : Nat, position < index → (get? s index).any (· == value) = false

end

/-! ## Scans by index -/

theorem takeWhile_not_eq_take_findIdx (stops : α → Bool) (elements : List α) :
    elements.takeWhile (!stops ·) = elements.take (elements.findIdx stops) := by
  rw [List.takeWhile_eq_take_findIdx_not]
  simp only [Bool.not_not]

theorem findIdx_eq_of_any {stops : α → Bool} {elements : List α} {index : Nat}
    (hstops : elements[index]?.any stops = true)
    (hearlier : ∀ i < index, elements[i]?.any stops = false) :
    index < elements.length ∧ elements.findIdx stops = index := by
  obtain ⟨element, helement, hequal⟩ := (Option.any_eq_true _ _).mp hstops
  obtain ⟨hindex, rfl⟩ := List.getElem?_eq_some_iff.mp helement
  refine ⟨hindex, (List.findIdx_eq hindex).mpr ⟨hequal, ?_⟩⟩
  intro i hi
  have hpassed := hearlier i hi
  rwa [List.getElem?_eq_getElem (Nat.lt_trans hi hindex)] at hpassed

theorem findIdx_lt_or_eq_length (stops : α → Bool) (elements : List α) :
    elements.findIdx stops < elements.length ∨ elements.findIdx stops = elements.length :=
  Nat.lt_or_eq_of_le List.findIdx_le_length

theorem any_findIdx {stops : α → Bool} {elements : List α}
    (hfound : elements.findIdx stops < elements.length) :
    elements[elements.findIdx stops]?.any stops = true := by
  rw [List.getElem?_eq_getElem hfound]
  exact List.findIdx_getElem

theorem any_of_lt_findIdx {stops : α → Bool} {elements : List α} {index : Nat}
    (hindex : index < elements.findIdx stops) : elements[index]?.any stops = false := by
  rw [List.getElem?_eq_getElem (Nat.lt_of_lt_of_le hindex List.findIdx_le_length)]
  exact List.not_of_lt_findIdx hindex

namespace PlainCursor

variable {c : PlainCursor S} [LawfulSequence S α]

theorem length_rest (c : PlainCursor S) : c.rest.length = c.length - (c.position + 1).toNat := by
  rw [rest, List.length_drop, length_eq]

/-- The element at an index behind the position, as one of those that are left. -/
theorem get?_behind (c : PlainCursor S) (index : Nat) :
    get? c.sequence ((c.position + 1).toNat + index) = c.rest[index]? := by
  rw [LawfulSequence.get?_eq, rest, List.getElem?_drop]

theorem scan_eq_findIdx (hc : c.Admissible) (stops : α → Bool) :
    c.scan stops =
      (⟨(c.rest.take (c.rest.findIdx stops)).toArray, c.rest[c.rest.findIdx stops]?⟩,
        c.moveTo (min (c.position + 1 + c.rest.findIdx stops) c.length)) := by
  have hlength : (c.rest.take (c.rest.findIdx stops)).length = c.rest.findIdx stops := by
    rw [List.length_take, Nat.min_eq_left List.findIdx_le_length]
  rw [scan_eq hc, scanTarget, takeWhile_not_eq_take_findIdx, hlength,
    List.find?_eq_getElem?_findIdx]

omit [LawfulSequence S α] in
/-- An index behind the position, as one among the elements that are left. -/
theorem exists_behind {index : Nat} (hc : c.Admissible) (hindex : c.position < index) :
    ∃ i, index = (c.position + 1).toNat + i := by
  have hfirst := hc.position_succ_nonneg
  exact ⟨index - (c.position + 1).toNat, by omega⟩

section

variable [BEq α]

/-- The first occurrence is where the scan stops. -/
theorem firstBehind_iff (hc : c.Admissible) (value : α) (index : Nat) :
    FirstBehind c.sequence c.position value index ↔
      c.rest.findIdx (· == value) < c.rest.length ∧
        index = (c.position + 1).toNat + c.rest.findIdx (· == value) := by
  have hfirst := hc.position_succ_nonneg
  constructor
  · rintro ⟨hbehind, hequal, hearlier⟩
    obtain ⟨i, rfl⟩ := exists_behind hc hbehind
    rw [get?_behind] at hequal
    obtain ⟨hi, hfound⟩ := findIdx_eq_of_any hequal fun j hj => by
      have hpassed := hearlier ((c.position + 1).toNat + j) (by omega) (by omega)
      rwa [get?_behind] at hpassed
    rw [hfound]
    exact ⟨hi, rfl⟩
  · rintro ⟨hfound, rfl⟩
    refine ⟨by omega, ?_, ?_⟩
    · rw [get?_behind]
      exact any_findIdx hfound
    · intro i hbehind hi
      obtain ⟨j, rfl⟩ := exists_behind hc hbehind
      rw [get?_behind]
      exact any_of_lt_findIdx (by omega)

theorem noneBehind_iff (hc : c.Admissible) (value : α) :
    NoneBehind c.sequence c.position value ↔
      c.rest.findIdx (· == value) = c.rest.length := by
  have hfirst := hc.position_succ_nonneg
  constructor
  · intro hnone
    apply Nat.le_antisymm List.findIdx_le_length
    apply Nat.le_of_not_lt
    intro hfound
    have hpassed := hnone ((c.position + 1).toNat + c.rest.findIdx (· == value)) (by omega)
    rw [get?_behind, any_findIdx hfound] at hpassed
    cases hpassed
  · intro hall index hbehind
    obtain ⟨i, rfl⟩ := exists_behind hc hbehind
    rw [get?_behind]
    rcases Nat.lt_or_ge i c.rest.length with hi | hi
    · exact any_of_lt_findIdx (by omega)
    · rw [List.getElem?_eq_none hi]
      rfl

end

theorem index_lt_length {stops : α → Bool} (hfound : c.rest.findIdx stops < c.rest.length) :
    (c.position + 1).toNat + c.rest.findIdx stops < c.length := by
  rw [length_rest] at hfound
  omega

/-- A scan ends on the first element that stops it. -/
theorem scan_of_lt (hc : c.Admissible) {stops : α → Bool}
    (hfound : c.rest.findIdx stops < c.rest.length) :
    c.scan stops =
      (⟨(c.rest.take (c.rest.findIdx stops)).toArray, some c.rest[c.rest.findIdx stops]⟩,
        c.moveTo ((c.position + 1).toNat + c.rest.findIdx stops : Nat)) := by
  have hindex := index_lt_length hfound
  have hfirst := hc.position_succ_nonneg
  have hplace : min (c.position + 1 + c.rest.findIdx stops) c.length =
      ((c.position + 1).toNat + c.rest.findIdx stops : Nat) := by
    omega
  rw [scan_eq_findIdx hc, hplace, List.getElem?_eq_getElem hfound]

/-- A scan that nothing stops ends at the end. -/
theorem scan_of_eq (hc : c.Admissible) {stops : α → Bool}
    (hall : c.rest.findIdx stops = c.rest.length) :
    c.scan stops = (⟨c.rest.toArray, none⟩, c.moveTo c.length) := by
  have hfirst := hc.position_succ_nonneg
  have hplace : min (c.position + 1 + c.rest.length) c.length = (c.length : Int) := by
    rw [length_rest]
    omega
  rw [scan_eq_findIdx hc, hall, hplace, List.take_length, List.getElem?_eq_none (Nat.le_refl _)]

theorem admissible_index (hc : c.Admissible) {stops : α → Bool}
    (hfound : c.rest.findIdx stops < c.rest.length) :
    (c.moveTo ((c.position + 1).toNat + c.rest.findIdx stops : Nat)).Admissible :=
  hc.moveTo_index (Nat.le_of_lt (index_lt_length hfound))

/-- The place of the first occurrence is not the end. -/
theorem atEnd_index (hc : c.Admissible) {stops : α → Bool}
    (hfound : c.rest.findIdx stops < c.rest.length) :
    (c.moveTo ((c.position + 1).toNat + c.rest.findIdx stops : Nat)).locate.atEnd = false := by
  rw [atEnd_locate (admissible_index hc hfound)]
  apply decide_eq_false
  apply Int.not_le.mpr
  exact Int.ofNat_lt.mpr (index_lt_length hfound)

omit [LawfulSequence S α] in
theorem atEnd_seekEnd (hc : c.Admissible) : (c.moveTo c.length).locate.atEnd = true := by
  rw [atEnd_locate hc.seekEnd]
  exact decide_eq_true (Int.le_refl _)

/-- The elements up to an index behind the position are a slice of the sequence. -/
theorem slice_behind (c : PlainCursor S) (count : Nat) :
    Sequence.slice c.sequence (c.position + 1).toNat ((c.position + 1).toNat + count) =
      .ok (ofList (c.rest.take count)) :=
  slice_add c.sequence _ count

end PlainCursor

namespace Cursor

variable {c : Cursor S} [LawfulSequence S α] [BEq α]

/-- Where an element stops it, reading up to a value leads to the first such element. -/
theorem Sound.upTo_of_lt (hc : c.Sound) {value : α}
    (hfound : c.plain.rest.findIdx (· == value) < c.plain.rest.length) :
    c.upTo value = .ok ⟨ofList (c.plain.rest.take (c.plain.rest.findIdx (· == value))),
      (c.plain.moveTo ((c.plain.position + 1).toNat +
        c.plain.rest.findIdx (· == value) : Nat)).locate, []⟩ := by
  have hupTo := PlainCursor.upTo_locate hc.admissible value
  rwa [hc.locate_plain, PlainCursor.scan_of_lt hc.admissible hfound] at hupTo

/-- Where no element stops it, reading up to a value reads everything. -/
theorem Sound.upTo_of_eq (hc : c.Sound) {value : α}
    (hall : c.plain.rest.findIdx (· == value) = c.plain.rest.length) :
    c.upTo value =
      .ok ⟨ofList c.plain.rest, (c.plain.moveTo c.plain.length).locate, []⟩ := by
  have hupTo := PlainCursor.upTo_locate hc.admissible value
  rwa [hc.locate_plain, PlainCursor.scan_of_eq hc.admissible hall] at hupTo

/-- Reading up to a value stops at its first occurrence behind the position, whatever the
test for equality is like: it answers the slice in between, and the cursor is on the
element that was found.  Without an occurrence it answers what was left and leads to the
end.  So the cursor is at its end just if the value did not occur. -/
theorem upTo_stops_at_first (hc : c.Reachable) (value : α) :
    ∃ reply, c.upTo value = .ok reply ∧ reply.cursor.contents = c.contents ∧
      (∀ index, FirstBehind c.contents c.position value index →
        index < c.length ∧
        Sequence.slice c.contents (c.position + 1).toNat index = .ok reply.answer ∧
        reply.cursor.position = index ∧
        reply.cursor.current = get? c.contents index ∧
        reply.cursor.atEnd = false) ∧
      ((¬ ∃ index, FirstBehind c.contents c.position value index) →
        c.remaining = .ok reply.answer ∧
        reply.cursor.position = c.length ∧
        reply.cursor.atEnd = true) ∧
      (reply.cursor.atEnd = true ↔ NoneBehind c.contents c.position value) := by
  have hplace := hc.sound.admissible
  have hlength : c.length = c.plain.length := hc.sound.coherent.length_eq
  have hnone := PlainCursor.noneBehind_iff hplace value
  have hfirst := PlainCursor.firstBehind_iff hplace value
  rcases findIdx_lt_or_eq_length (· == value) c.plain.rest with hfound | hall
  · have hend := PlainCursor.atEnd_index hplace hfound
    refine ⟨_, hc.sound.upTo_of_lt hfound, rfl, ?_, ?_, ?_⟩
    · intro index hindex
      obtain ⟨-, rfl⟩ := (hfirst index).mp hindex
      refine ⟨?_, PlainCursor.slice_behind c.plain _, rfl, ?_, hend⟩
      · rw [hlength]
        exact PlainCursor.index_lt_length hfound
      · exact PlainCursor.current_moveTo_index c.plain _
    · intro habsent
      exact absurd ⟨_, (hfirst _).mpr ⟨hfound, rfl⟩⟩ habsent
    · rw [hend]
      exact iff_of_false Bool.false_ne_true fun habsent => Nat.ne_of_lt hfound (hnone.mp habsent)
  · have hend := PlainCursor.atEnd_seekEnd hplace
    refine ⟨_, hc.sound.upTo_of_eq hall, rfl, ?_, ?_, ?_⟩
    · intro index hindex
      exact absurd ((hfirst index).mp hindex).1 (Nat.not_lt_of_ge (Nat.le_of_eq hall.symm))
    · intro _
      exact ⟨hc.sound.remaining_eq, congrArg Nat.cast hlength.symm, hend⟩
    · exact iff_of_true hend (hnone.mpr hall)

/-- Found by its key, the first of two elements is told apart from the value sought by
what is stored beside the key. -/
theorem upTo_stops_at_first_key :
    (on (#[⟨1, "a"⟩, ⟨2, "b"⟩, ⟨2, "c"⟩] : Array Keyed)).Reachable ∧
    FirstBehind (#[⟨1, "a"⟩, ⟨2, "b"⟩, ⟨2, "c"⟩] : Array Keyed) beforeFirst ⟨2, "x"⟩ 1 ∧
    ∃ reply, (on (#[⟨1, "a"⟩, ⟨2, "b"⟩, ⟨2, "c"⟩] : Array Keyed)).upTo ⟨2, "x"⟩ = .ok reply ∧
      Sequence.slice (#[⟨1, "a"⟩, ⟨2, "b"⟩, ⟨2, "c"⟩] : Array Keyed) 0 1 = .ok reply.answer ∧
      reply.cursor.position = 1 ∧ reply.cursor.current = some ⟨2, "b"⟩ ∧
      reply.cursor.atEnd = false := by
  have hreachable : (on (#[⟨1, "a"⟩, ⟨2, "b"⟩, ⟨2, "c"⟩] : Array Keyed)).Reachable :=
    reachable_on (Indexed.addressable (by decide))
  have hfirst : FirstBehind (#[⟨1, "a"⟩, ⟨2, "b"⟩, ⟨2, "c"⟩] : Array Keyed)
      beforeFirst ⟨2, "x"⟩ 1 := by
    refine ⟨by decide, rfl, ?_⟩
    intro i _ hi
    obtain rfl : i = 0 := by omega
    rfl
  obtain ⟨reply, hreply, -, hfound, -⟩ := upTo_stops_at_first hreachable ⟨2, "x"⟩
  obtain ⟨-, hpassed, hposition, hcurrent, hend⟩ := hfound 1 hfirst
  exact ⟨hreachable, hfirst, reply, hreply, hpassed, hposition, hcurrent, hend⟩

end Cursor

end SeqCursor
