import SeqCursor.Proofs.Marks

/-!
# Moves

An absolute move is made where its target is within the sequence, and refused
elsewhere.  A relative move is made where it stays within the sequence, and leads to
the end elsewhere, on whichever side it would have left.  Forwards it leads to the
cursor that as many single reads lead to, and one that stays within is undone by the
opposite move.
-/

namespace SeqCursor

open Sequence

variable {S α : Type} [Sequence S α] [LawfulSequence S α]

namespace PlainCursor

omit [LawfulSequence S α] in
/-- A step on is held at the end. -/
theorem advance_eq_moveTo {c : PlainCursor S} (hc : c.Admissible) :
    c.advance = c.moveTo (min (c.position + 1) c.length) := by
  have hbound := hc.position_le
  cases hend : c.atEnd with
  | true =>
      have hlast : min (c.position + 1) c.length = c.position := by
        have hpast := length_le_of_atEnd hend
        omega
      rw [advance, hend, hlast]
      rfl
  | false => rw [advance_of_not_atEnd hend, Int.min_eq_left (position_lt_length hend)]

omit [LawfulSequence S α] in
/-- Single reads lead a position further each, as far as the end. -/
theorem exists_run_next [BEq α] {c : PlainCursor S} (hc : c.Admissible) (count : Nat) :
    ∃ walked, c.run (List.replicate count .next) = .ok walked ∧
      walked.cursor = c.moveTo (min (c.position + count) c.length) := by
  induction count generalizing c with
  | zero =>
      have hstays : min (c.position + (0 : Nat)) (c.length : Int) = c.position := by
        rw [Int.natCast_zero, Int.add_zero, Int.min_eq_left hc.position_le]
      refine ⟨_, rfl, ?_⟩
      rw [hstays]
      rfl
  | succ count ih =>
      have hstep : c.perform .next = .ok ⟨.element c.peek, c.advance, []⟩ := rfl
      have hsum : min (min (c.position + 1) c.length + count) (c.length : Int) =
          min (c.position + (count + 1 : Nat)) c.length := by
        omega
      obtain ⟨walked, hwalked, hlast⟩ := ih hc.advance
      refine ⟨_, run_cons hstep hwalked, hlast.trans ?_⟩
      rw [advance_eq_moveTo hc, ← hsum]
      rfl

end PlainCursor

namespace Cursor

variable {c : Cursor S}

omit [LawfulSequence S α] in
theorem seek_of_not_range {target : Int}
    (hrange : ¬ (beforeFirst ≤ target ∧ target ≤ c.length)) :
    c.seek target = .ok ⟨none, c, [.rejectedPosition target c.length]⟩ :=
  if_neg hrange

namespace Sound

theorem exists_seek (hc : c.Sound) {target : Int}
    (hrange : beforeFirst ≤ target ∧ target ≤ c.length) :
    ∃ moved, c.seek target = .ok ⟨some target, moved, []⟩ ∧
      moved.contents = c.contents ∧ moved.position = target := by
  have hseek := PlainCursor.seek_locate hc.admissible target
  rw [hc.coherent.length_eq] at hrange
  rw [hc.locate_plain, PlainCursor.seek_of_range hrange] at hseek
  exact ⟨_, hseek, rfl, rfl⟩

/-- A relative move keeps to the sequence, and leads to its target or to the end. -/
theorem exists_skip (hc : c.Sound) (move : Int) :
    ∃ skipped, c.skip move = .ok skipped ∧ skipped.cursor.Sound ∧
      skipped.cursor.contents = c.contents ∧
      skipped.cursor.position =
        if beforeFirst ≤ c.position + move ∧ c.position + move ≤ c.length then
          c.position + move
        else
          c.length := by
  have hskip := PlainCursor.skip_locate hc.admissible move
  obtain ⟨hafter, hsequence⟩ := PlainCursor.admissible_skip hc.admissible move
  rw [hc.locate_plain] at hskip
  refine ⟨_, hskip, PlainCursor.sound_locate hafter, hsequence, ?_⟩
  rw [hc.coherent.length_eq]
  change (c.plain.skip move).cursor.position = _
  by_cases hrange : beforeFirst ≤ c.position + move ∧
      c.position + move ≤ Sequence.length c.sequence
  · rw [if_pos hrange, PlainCursor.skip_of_range hc.admissible hrange]
    rfl
  · rw [if_neg hrange, PlainCursor.cursor_skip_of_not_range hrange]
    rfl

/-- The opposite of a move that stays within the sequence leads back. -/
theorem exists_skip_neg (hc : c.Sound) {move : Int} (hfirst : beforeFirst ≤ c.position + move)
    (hlast : c.position + move ≤ c.length) :
    ∃ there back, c.skip move = .ok there ∧ there.cursor.skip (-move) = .ok back ∧
      back.cursor = c := by
  obtain ⟨there, hthere, hsound, hcontents, hposition⟩ := hc.exists_skip move
  obtain ⟨back, hback, hagain, hsame, hreturned⟩ := hsound.exists_skip (-move)
  rw [if_pos ⟨hfirst, hlast⟩] at hposition
  have hlength : there.cursor.length = c.length := by
    rw [hsound.coherent.length_eq, hc.coherent.length_eq]
    exact congrArg Sequence.length hcontents
  have horigin : there.cursor.position + -move = c.position := by
    rw [hposition]
    exact Int.add_neg_cancel_right c.position move
  have hwithin : beforeFirst ≤ c.position ∧ c.position ≤ c.length := by
    rw [hc.coherent.length_eq]
    exact ⟨hc.coherent.beforeFirst_le, hc.coherent.position_le⟩
  rw [horigin, hlength, if_pos hwithin] at hreturned
  exact ⟨there, back, hthere, hback,
    hagain.eq_of_position_eq hc (hsame.trans hcontents) hreturned⟩

/-- A move forwards leads to the cursor that as many single reads lead to. -/
theorem exists_skip_eq_walk [BEq α] (hc : c.Sound) (count : Nat) :
    ∃ skipped walked, c.skip count = .ok skipped ∧
      c.run (List.replicate count .next) = .ok walked ∧ skipped.cursor = walked.cursor := by
  have hskip := PlainCursor.skip_locate hc.admissible count
  obtain ⟨walked, hwalked, hlast⟩ := PlainCursor.exists_run_next hc.admissible count
  obtain ⟨same, hsame, hreal, -, -⟩ :=
    PlainCursor.exists_run hc.admissible (List.replicate count .next)
  obtain rfl : walked = same := Except.ok.inj (hwalked.symm.trans hsame)
  rw [hc.locate_plain] at hskip hreal
  refine ⟨_, _, hskip, hreal, ?_⟩
  rw [Reply.mapCursor, Reply.mapCursor, hlast,
    PlainCursor.cursor_skip_of_nonneg hc.admissible (Int.natCast_nonneg count)]

end Sound

variable [BEq α]

/-- An absolute move answers its target and leads there if the target is within the
sequence, and changes nothing otherwise.  A relative move leads to the sum if that is
within the sequence, and to the end otherwise.  Forwards that is where as many single
reads lead, and there the opposite move leads back, to the same cursor. -/
theorem moves_stay_within (hc : c.Reachable) :
    (∀ target, ∃ sought, c.seek target = .ok sought ∧
      sought.cursor.contents = c.contents ∧
      (beforeFirst ≤ target ∧ target ≤ c.length →
        sought.answer = some target ∧ sought.cursor.position = target) ∧
      (¬ (beforeFirst ≤ target ∧ target ≤ c.length) →
        sought.answer = none ∧ sought.cursor = c)) ∧
    (∀ move, ∃ skipped, c.skip move = .ok skipped ∧
      skipped.cursor.contents = c.contents ∧
      skipped.cursor.position =
        if beforeFirst ≤ c.position + move ∧ c.position + move ≤ c.length then
          c.position + move
        else
          c.length) ∧
    (∀ count : Nat, ∃ skipped walked, c.skip count = .ok skipped ∧
      c.run (List.replicate count .next) = .ok walked ∧ skipped.cursor = walked.cursor) ∧
    (∀ move, 0 ≤ move → c.position + move ≤ c.length →
      ∃ there back, c.skip move = .ok there ∧ there.cursor.skip (-move) = .ok back ∧
        back.cursor = c) := by
  refine ⟨?_, ?_, hc.sound.exists_skip_eq_walk, ?_⟩
  · intro target
    by_cases hrange : beforeFirst ≤ target ∧ target ≤ c.length
    · obtain ⟨moved, hmoved, hcontents, hposition⟩ := hc.sound.exists_seek hrange
      exact ⟨_, hmoved, hcontents, fun _ => ⟨rfl, hposition⟩, fun hother => absurd hrange hother⟩
    · exact ⟨_, seek_of_not_range hrange, rfl, fun hother => absurd hother hrange,
        fun _ => ⟨rfl, rfl⟩⟩
  · intro move
    obtain ⟨skipped, hskipped, -, hcontents, hposition⟩ := hc.sound.exists_skip move
    exact ⟨skipped, hskipped, hcontents, hposition⟩
  · intro move hmove hlast
    have hfirst : (-1 : Int) ≤ c.position := hc.sound.coherent.beforeFirst_le
    exact hc.sound.exists_skip_neg (Int.le_trans hfirst (Int.le_add_of_nonneg_right hmove)) hlast

/-- From before a character of four bytes: a target behind the end, the smallest and the
largest move that can be written down, and three steps to the end and back. -/
theorem moves_stay_within_mixed_widths :
    (Cursor.mk "aé🦀b" 1 4 3).Reachable ∧
    (∃ sought, (Cursor.mk "aé🦀b" 1 4 3).seek 5 = .ok sought ∧
      sought.answer = none ∧ sought.cursor = Cursor.mk "aé🦀b" 1 4 3) ∧
    (∃ skipped, (Cursor.mk "aé🦀b" 1 4 3).skip minPosition = .ok skipped ∧
      skipped.cursor.position = 4) ∧
    (∃ skipped, (Cursor.mk "aé🦀b" 1 4 3).skip maxPosition = .ok skipped ∧
      skipped.cursor.position = 4) ∧
    (∃ skipped walked, (Cursor.mk "aé🦀b" 1 4 3).skip (3 : Nat) = .ok skipped ∧
      (Cursor.mk "aé🦀b" 1 4 3).run (List.replicate 3 .next) = .ok walked ∧
      skipped.cursor = walked.cursor) ∧
    (0 : Int) ≤ 3 ∧ (1 : Int) + 3 ≤ (4 : Nat) ∧
    ∃ there back, (Cursor.mk "aé🦀b" 1 4 3).skip 3 = .ok there ∧
      there.cursor.skip (-3) = .ok back ∧ back.cursor = Cursor.mk "aé🦀b" 1 4 3 := by
  have hreachable : (Cursor.mk "aé🦀b" 1 4 3).Reachable :=
    reachable_mixed_widths (by decide +kernel)
  obtain ⟨hseek, hskip, hwalk, hback⟩ := moves_stay_within hreachable
  obtain ⟨sought, hsought, -, -, hrefused⟩ := hseek 5
  obtain ⟨least, hleast, -, hleft⟩ := hskip minPosition
  obtain ⟨greatest, hgreatest, -, hright⟩ := hskip maxPosition
  exact ⟨hreachable, ⟨sought, hsought, hrefused (by decide)⟩, ⟨least, hleast, hleft⟩,
    ⟨greatest, hgreatest, hright⟩, hwalk 3, by decide, by decide,
    hback 3 (by decide) (by decide)⟩

end Cursor

end SeqCursor
