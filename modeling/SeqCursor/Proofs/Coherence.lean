import SeqCursor.PlainCursor
import SeqCursor.Sequence.Lawful

/-!
# Coherent cursors

A cursor caches the storage offset of the element behind its position.  It is
coherent when the cache is right, and then its sequence and its position
determine it.  This module puts the cached offset beside a plain cursor, and shows
that what looks at the resulting cursor or moves it has a closed form: it answers
what the plain cursor answers, and leads to the coherent cursor at the place that
the plain one moves to.
-/

namespace SeqCursor

open Sequence

variable {S α : Type} [Sequence S α]

/-- The same reply with its cursor put differently. -/
def Reply.mapCursor {C D β : Type} (f : C → D) (reply : Reply C β) : Reply D β :=
  ⟨reply.answer, f reply.cursor, reply.notices⟩

/-- The cached offset and length of a cursor are those of its position and sequence,
and its position is within the sequence. -/
structure Cursor.Coherent (c : Cursor S) : Prop where
  length_eq : c.length = Sequence.length c.sequence
  beforeFirst_le : beforeFirst ≤ c.position
  position_le : c.position ≤ Sequence.length c.sequence
  offset_eq : c.offset = offsetOf c.sequence (c.position + 1).toNat

/-- The place of a cursor, without the offset. -/
def Cursor.plain (c : Cursor S) : PlainCursor S :=
  ⟨c.sequence, c.position⟩

namespace PlainCursor

/-- The cursor at the same place, with the offset that belongs to it. -/
def locate (c : PlainCursor S) : Cursor S :=
  ⟨c.sequence, c.position, c.length, offsetOf c.sequence (c.position + 1).toNat⟩

/-- A place that the machine ranges admit: in an addressable sequence, from before
its first element to its end. -/
structure Admissible (c : PlainCursor S) : Prop where
  addressable : Addressable c.sequence
  beforeFirst_le : Cursor.beforeFirst ≤ c.position
  position_le : c.position ≤ c.length

theorem coherent_locate {c : PlainCursor S} (hc : c.Admissible) : c.locate.Coherent :=
  ⟨rfl, hc.beforeFirst_le, hc.position_le, rfl⟩

end PlainCursor

namespace Cursor.Coherent

variable {c : Cursor S}

theorem locate_plain (hc : c.Coherent) : c.plain.locate = c := by
  obtain ⟨s, position, length, offset⟩ := c
  have hlength : length = Sequence.length s := hc.length_eq
  have hoffset : offset = offsetOf s (position + 1).toNat := hc.offset_eq
  rw [hlength, hoffset]
  rfl

theorem admissible_plain (hc : c.Coherent) (hs : Addressable c.sequence) :
    c.plain.Admissible :=
  ⟨hs, hc.beforeFirst_le, hc.position_le⟩

end Cursor.Coherent

namespace PlainCursor

variable {c : PlainCursor S}

theorem length_le_of_atEnd (hend : c.atEnd = true) : (c.length : Int) ≤ c.position :=
  of_decide_eq_true hend

theorem position_lt_length (hend : c.atEnd = false) : c.position < c.length :=
  Int.not_le.mp (of_decide_eq_false hend)

namespace Admissible

theorem on {s : S} (hs : Addressable s) : (on s).Admissible := by
  refine ⟨hs, Int.le_refl _, ?_⟩
  change (-1 : Int) ≤ (Sequence.length s : Int)
  omega

theorem moveTo (hc : c.Admissible) {target : Int} (hlow : Cursor.beforeFirst ≤ target)
    (hhigh : target ≤ c.length) : (c.moveTo target).Admissible :=
  ⟨hc.addressable, hlow, hhigh⟩

theorem moveTo_index (hc : c.Admissible) {index : Nat} (hindex : index ≤ c.length) :
    (c.moveTo index).Admissible := by
  apply hc.moveTo
  · exact Int.le_trans (by decide) (Int.natCast_nonneg _)
  · exact Int.ofNat_le.mpr hindex

theorem position_lt (hc : c.Admissible) : c.position < maxPosition :=
  Int.lt_of_le_of_lt hc.position_le hc.addressable.length_lt

theorem position_succ_nonneg (hc : c.Admissible) : 0 ≤ c.position + 1 := by
  have hlow : (-1 : Int) ≤ c.position := hc.beforeFirst_le
  omega

theorem toNat_succ_succ (hc : c.Admissible) :
    (c.position + 1 + 1).toNat = (c.position + 1).toNat + 1 :=
  Int.toNat_add hc.position_succ_nonneg (by decide)

theorem rewind (hc : c.Admissible) : (c.moveTo Cursor.beforeFirst).Admissible := by
  apply hc.moveTo (Int.le_refl _)
  exact Int.le_trans hc.beforeFirst_le hc.position_le

theorem seekEnd (hc : c.Admissible) : (c.moveTo c.length).Admissible := by
  apply hc.moveTo
  · exact Int.le_trans hc.beforeFirst_le hc.position_le
  · exact Int.le_refl _

theorem step (hc : c.Admissible) (hend : c.atEnd = false) :
    (c.moveTo (c.position + 1)).Admissible := by
  apply hc.moveTo
  · exact Int.le_trans hc.beforeFirst_le (Int.le_add_one (Int.le_refl _))
  · exact position_lt_length hend

theorem advance (hc : c.Admissible) : c.advance.Admissible := by
  rw [PlainCursor.advance]
  cases hend : c.atEnd with
  | true => exact hc
  | false => exact hc.step hend

end Admissible

/-! ## Closed forms of looking -/

@[simp]
theorem locate_on (s : S) [LawfulSequence S α] : (on s).locate = Cursor.on s := by
  change Cursor.mk s Cursor.beforeFirst (Sequence.length s) (offsetOf s 0) = Cursor.on s
  rw [LawfulSequence.offsetOf_zero]
  rfl

theorem atEnd_locate (hc : c.Admissible) : c.locate.atEnd = c.atEnd := by
  have hle : c.position ≤ c.length := hc.position_le
  rw [Bool.eq_iff_iff]
  change (c.position == (c.length : Int)) = true ↔ decide ((c.length : Int) ≤ c.position) = true
  rw [beq_iff_eq, decide_eq_true_iff]
  omega

theorem remaining_locate (hc : c.Admissible) :
    c.locate.remaining = Sequence.slice c.sequence (c.position + 1).toNat c.length := by
  rw [Cursor.remaining]
  change (Position.succ c.position >>= fun following =>
    Position.toIndex (max following 0) >>= fun start =>
      Sequence.slice c.sequence start c.length) = _
  rw [Position.succ_of_lt hc.position_lt]
  change (Position.toIndex (max (c.position + 1) 0) >>= _) = _
  rw [Position.toIndex_max_zero]
  rfl

section

variable [LawfulSequence S α]

theorem length_eq (c : PlainCursor S) : c.length = (toList c.sequence).length :=
  LawfulSequence.length_eq c.sequence

/-- What lies ahead, as an element of the list. -/
theorem peek_eq (hc : c.Admissible) :
    c.peek = (toList c.sequence)[(c.position + 1).toNat]? := by
  rw [peek, elementAt, if_pos hc.position_succ_nonneg, LawfulSequence.get?_eq]

theorem current_eq (hfirst : 0 ≤ c.position) :
    c.current = (toList c.sequence)[c.position.toNat]? := by
  rw [current, elementAt, if_pos hfirst, LawfulSequence.get?_eq]

theorem peek_eq_none (hc : c.Admissible) (hlast : (c.length : Int) ≤ c.position + 1) :
    c.peek = none := by
  rw [peek_eq hc, List.getElem?_eq_none]
  rw [← length_eq]
  omega

/-- Reading at the cached offset finds the element ahead and the offset behind it. -/
theorem ahead_locate (hc : c.Admissible) :
    c.locate.ahead = .ok
      (c.peek.map fun element => (element, offsetOf c.sequence (c.position + 1 + 1).toNat)) := by
  change atOffset c.sequence (offsetOf c.sequence (c.position + 1).toNat) = _
  rw [LawfulSequence.atOffset_offsetOf (hc.addressable.offsetOf_le _), peek_eq hc,
    hc.toNat_succ_succ]

theorem peek_locate (hc : c.Admissible) : c.locate.peek = .ok c.peek := by
  rw [Cursor.peek, atEnd_locate hc, ahead_locate hc]
  cases hend : c.atEnd with
  | true =>
      rw [peek_eq_none hc (Int.le_add_one (length_le_of_atEnd hend))]
      rfl
  | false => cases c.peek <;> rfl

theorem current_locate (c : PlainCursor S) : c.locate.current = c.current := by
  rw [Cursor.current]
  change (if c.position < 0 ∨ (c.length : Int) ≤ c.position then none
    else beforeOffset c.sequence (offsetOf c.sequence (c.position + 1).toNat)) = c.current
  by_cases hfirst : 0 ≤ c.position
  · rw [current_eq hfirst]
    by_cases hlast : (c.length : Int) ≤ c.position
    · rw [if_pos (Or.inr hlast), List.getElem?_eq_none]
      rw [← length_eq]
      exact Int.ofNat_le.mp (Int.le_trans hlast (Int.self_le_toNat _))
    · have hindex : c.position.toNat < Sequence.length c.sequence := by
        change c.position.toNat < c.length
        omega
      rw [if_neg (by omega), Int.toNat_add hfirst (by decide)]
      exact LawfulSequence.beforeOffset_offsetOf_succ hindex
  · rw [if_pos (Or.inl (by omega))]
    rw [current, elementAt, if_neg hfirst]

theorem current_moveTo_index (c : PlainCursor S) (index : Nat) :
    (c.moveTo index).locate.current = get? c.sequence index := by
  rw [current_locate, current, elementAt]
  exact if_pos (Int.natCast_nonneg index)

omit [LawfulSequence S α] in
theorem peek_moveTo_index (c : PlainCursor S) (index : Nat) :
    (c.moveTo index).peek = get? c.sequence (index + 1) := by
  rw [peek, elementAt]
  exact if_pos (Int.natCast_nonneg (index + 1))

/-- With nothing ahead, the offset stays at the end of storage. -/
theorem offsetOf_of_peek_eq_none (hc : c.Admissible) (hpeek : c.peek = none) :
    offsetOf c.sequence (c.position + 1 + 1).toNat =
      offsetOf c.sequence (c.position + 1).toNat := by
  rw [peek_eq hc, List.getElem?_eq_none_iff, ← LawfulSequence.length_eq] at hpeek
  rw [hc.toNat_succ_succ]
  exact offsetOf_succ_of_length_le hpeek

/-! ## Closed forms of moving -/

/-- A move by one, which takes the offset from the element it passes, agrees with
the jump that resolves its target from the start. -/
theorem moveTo_locate (hc : c.Admissible) {target : Int} (hlow : Cursor.beforeFirst ≤ target)
    (hhigh : target ≤ c.length) :
    c.locate.moveTo target = .ok (c.moveTo target).locate := by
  have hmoved : (c.moveTo target).Admissible := hc.moveTo hlow hhigh
  have hbound : target < maxPosition := hmoved.position_lt
  rw [Cursor.moveTo]
  change (Position.succ c.position >>= _) = _
  rw [Position.succ_of_lt hc.position_lt]
  change (if target = c.position + 1 then _ else _) = _
  by_cases hstep : target = c.position + 1
  · rw [if_pos hstep, ahead_locate hc]
    subst hstep
    cases hpeek : c.peek with
    | some element => rfl
    | none =>
        -- The step past the last element keeps the offset at the end of storage.
        change Except.ok (Cursor.mk c.sequence (c.position + 1) c.length
          (offsetOf c.sequence (c.position + 1).toNat)) = _
        rw [← offsetOf_of_peek_eq_none hc hpeek]
        rfl
  · rw [if_neg hstep, Position.succ_of_lt hbound]
    have hindex : 0 ≤ target + 1 := hmoved.position_succ_nonneg
    change (Position.toIndex (target + 1) >>= _) = _
    rw [Position.toIndex_of_nonneg hindex]
    rfl

omit [LawfulSequence S α] in
theorem seek_of_range {target : Int}
    (hrange : Cursor.beforeFirst ≤ target ∧ target ≤ c.length) :
    c.seek target = ⟨some target, c.moveTo target, []⟩ :=
  if_pos hrange

omit [LawfulSequence S α] in
theorem seek_of_not_range {target : Int}
    (hrange : ¬ (Cursor.beforeFirst ≤ target ∧ target ≤ c.length)) :
    c.seek target = ⟨none, c, [.rejectedPosition target c.length]⟩ :=
  if_neg hrange

theorem seek_locate (hc : c.Admissible) (target : Int) :
    c.locate.seek target = .ok ((c.seek target).mapCursor locate) := by
  rw [Cursor.seek]
  change (if Cursor.beforeFirst ≤ target ∧ target ≤ c.length then _ else _) = _
  by_cases hrange : Cursor.beforeFirst ≤ target ∧ target ≤ c.length
  · rw [if_pos hrange, seek_of_range hrange, moveTo_locate hc hrange.1 hrange.2]
    rfl
  · rw [if_neg hrange, seek_of_not_range hrange]
    rfl

theorem rewind_locate (c : PlainCursor S) :
    c.locate.rewind = (c.moveTo Cursor.beforeFirst).locate := by
  change Cursor.mk c.sequence Cursor.beforeFirst c.length 0 =
    Cursor.mk c.sequence Cursor.beforeFirst c.length (offsetOf c.sequence 0)
  rw [LawfulSequence.offsetOf_zero]

theorem seekEnd_locate (hc : c.Admissible) :
    c.locate.seekEnd = .ok (c.moveTo c.length).locate :=
  moveTo_locate hc hc.seekEnd.beforeFirst_le hc.seekEnd.position_le

theorem skip_locate (hc : c.Admissible) (move : Int) :
    c.locate.skip move = .ok ((c.skip move).mapCursor locate) := by
  have hsame : c.locate.position = c.position := rfl
  rw [Cursor.skip, skip, hsame]
  cases Position.add? c.position move with
  | none =>
      change (c.locate.seekEnd >>= _) = _
      rw [seekEnd_locate hc]
      rfl
  | some target =>
      dsimp only
      rw [seek_locate hc]
      by_cases hrange : Cursor.beforeFirst ≤ target ∧ target ≤ c.length
      · rw [seek_of_range hrange]
        rfl
      · rw [seek_of_not_range hrange]
        change (c.locate.seekEnd >>= _) = _
        rw [seekEnd_locate hc]
        rfl

end

end PlainCursor

end SeqCursor
