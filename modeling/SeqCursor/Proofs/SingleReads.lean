import SeqCursor.Keyed
import SeqCursor.Proofs.Moves

/-!
# Single reads

Four requests read a single element: a plain step, a demand, a comparison that reads only on
a match and one that reads in any case.  Each of them looks up the element and moves by means
of its own, and a plain step has moved before it knows that there is no element.  Even so all
of them read what is shown ahead, and those that move lead to one cursor, cached offset
included.  The others leave the cursor that they were asked of.
-/

namespace SeqCursor

open Sequence

variable {S α : Type} [Sequence S α]

/-- The single reads of a cursor, where `ahead?` is shown ahead of it, `rest` is left, and
`after` is one step on. -/
structure Cursor.ReadsOne [BEq α] (c : Cursor S) (value : α) (ahead? : Option α) (rest : S)
    (after : Cursor S) : Prop where
  peek : c.peek = .ok ahead?
  remaining : c.remaining = .ok rest
  eq_none_iff_isEmpty : ahead? = none ↔ Sequence.isEmpty rest = true
  eq_none_iff_position : ahead? = none ↔ (c.length : Int) - 1 ≤ c.position
  next : c.next = .ok ⟨ahead?, after, []⟩
  position_after : after.position = min (c.position + 1) c.length
  contents_after : after.contents = c.contents
  demand_of_some : ∀ element, ahead? = some element → c.demand = .ok ⟨.ok element, after, []⟩
  /-- On the last element a step still moves, but a demand does not. -/
  demand_of_none : ahead? = none → c.demand = .ok ⟨.error (.endOfStream c.position), c, []⟩
  compared : ∃ accepted, c.accept value = .ok accepted ∧
    (accepted.answer = true ↔ ∃ element, ahead? = some element ∧ (element == value) = true) ∧
    accepted.cursor = (if accepted.answer then after else c) ∧
    c.nextMatches value = .ok ⟨accepted.answer, after, []⟩
  /-- The cursor is on the element that was read, the stored one. -/
  current_after : ∀ element, ahead? = some element →
    get? c.contents (c.position + 1).toNat = some element ∧ after.current = some element

variable [LawfulSequence S α]

namespace PlainCursor

variable {c : PlainCursor S}

theorem peek_eq_none_iff_position (hc : c.Admissible) :
    c.peek = none ↔ (c.length : Int) - 1 ≤ c.position := by
  have hlow := hc.position_succ_nonneg
  rw [peek_eq hc, List.getElem?_eq_none_iff, ← length_eq]
  omega

theorem peek_eq_none_iff_isEmpty (hc : c.Admissible) :
    c.peek = none ↔ isEmpty (ofList c.rest : S) = true := by
  rw [← head?_rest hc, List.head?_eq_none_iff, LawfulSequence.isEmpty_eq,
    LawfulSequence.toList_ofList, List.isEmpty_iff]

theorem get?_eq_peek (hc : c.Admissible) : get? c.sequence (c.position + 1).toNat = c.peek := by
  rw [peek_eq hc, LawfulSequence.get?_eq]

/-- One step on, the cursor is on the element that was ahead. -/
theorem current_advance (hc : c.Admissible) {element : α} (hpeek : c.peek = some element) :
    c.advance.current = some element := by
  have hend : c.atEnd = false := by
    apply Bool.eq_false_iff.mpr
    intro hlast
    rw [peek_eq_none hc (Int.le_add_one (length_le_of_atEnd hlast))] at hpeek
    cases hpeek
  rw [advance_of_not_atEnd hend]
  exact hpeek

end PlainCursor

namespace Cursor

variable {c : Cursor S} [BEq α]

/-- From every reachable cursor the single reads agree.  They read what is shown ahead, and
fail where nothing is left, which is from the last element on.  A step, a demand that is met
and a comparison that holds lead to one cursor, on the stored element, and so does the
comparison that reads in any case.  A demand and a comparison that fail change nothing. -/
theorem single_reads_agree (hc : c.Reachable) (value : α) :
    ∃ ahead? rest after, c.ReadsOne value ahead? rest after := by
  have hsound := hc.sound
  have hplace := hsound.admissible
  have hlength : c.length = c.plain.length := hsound.coherent.length_eq
  refine ⟨c.plain.peek, ofList c.plain.rest, c.plain.advance.locate, ?_⟩
  constructor
  · exact hsound.peek_eq
  · exact hsound.remaining_eq
  · exact PlainCursor.peek_eq_none_iff_isEmpty hplace
  · rw [hlength]
    exact PlainCursor.peek_eq_none_iff_position hplace
  · exact hsound.next_eq
  · rw [hlength, PlainCursor.advance_eq_moveTo hplace]
    rfl
  · exact PlainCursor.sequence_advance c.plain
  · intro element hahead
    rw [hsound.demand_eq, hahead]
  · intro hnone
    rw [hsound.demand_eq, hnone]
  · refine ⟨_, hsound.accept_eq value, ?_, ?_, ?_⟩
    · rw [← Option.any_eq_true]
      cases c.plain.peek.any (· == value) <;> simp
    · cases c.plain.peek.any (· == value) <;> rfl
    · rw [hsound.nextMatches_eq]
      cases c.plain.peek.any (· == value) <;> rfl
  · intro element hahead
    rw [PlainCursor.current_locate]
    exact ⟨(PlainCursor.get?_eq_peek hplace).trans hahead,
      PlainCursor.current_advance hplace hahead⟩

/-- An element that is found by its key, and the last character of a text, from where a step
leads to the end but a demand leads nowhere. -/
theorem single_reads_agree_key_and_last :
    (on (#[⟨1, "a"⟩, ⟨2, "b"⟩] : Array Keyed)).Reachable ∧
    (∃ rest after, (on (#[⟨1, "a"⟩, ⟨2, "b"⟩] : Array Keyed)).ReadsOne ⟨1, "x"⟩
        (some ⟨1, "a"⟩) rest after ∧
      (∃ accepted, (on (#[⟨1, "a"⟩, ⟨2, "b"⟩] : Array Keyed)).accept ⟨1, "x"⟩ = .ok accepted ∧
        accepted.answer = true) ∧
      after.current = some ⟨1, "a"⟩) ∧
    (Cursor.mk "aé🦀b" 3 4 8).Reachable ∧
    ∃ rest after, (Cursor.mk "aé🦀b" 3 4 8).ReadsOne 'b' none rest after ∧
      after.position = 4 ∧
      (Cursor.mk "aé🦀b" 3 4 8).demand =
        .ok ⟨.error (.endOfStream 3), Cursor.mk "aé🦀b" 3 4 8, []⟩ := by
  have hkeyed : (on (#[⟨1, "a"⟩, ⟨2, "b"⟩] : Array Keyed)).Reachable :=
    reachable_on (Indexed.addressable (by decide))
  have hlast : (Cursor.mk "aé🦀b" 3 4 8).Reachable :=
    reachable_mixed_widths (by decide +kernel)
  obtain ⟨first?, rest, after, hfirst⟩ := single_reads_agree hkeyed ⟨1, "x"⟩
  obtain rfl : some ⟨1, "a"⟩ = first? := Except.ok.inj hfirst.peek
  obtain ⟨accepted, haccepted, hequal, -⟩ := hfirst.compared
  obtain ⟨none?, left, behind, hnone⟩ := single_reads_agree hlast 'b'
  obtain rfl : none? = none := hnone.eq_none_iff_position.mpr (Int.le_refl 3)
  exact ⟨hkeyed, ⟨rest, after, hfirst,
      ⟨accepted, haccepted, hequal.mpr ⟨⟨1, "a"⟩, rfl, rfl⟩⟩,
      (hfirst.current_after ⟨1, "a"⟩ rfl).2⟩,
    hlast, left, behind, hnone, hnone.position_after, hnone.demand_of_none rfl⟩

end Cursor

end SeqCursor
