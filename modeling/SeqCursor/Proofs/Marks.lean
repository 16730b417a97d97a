import SeqCursor.Proofs.SessionInvariant

/-!
# Positions as marks

The cached offset depends on the position alone, whichever moves led there: a step takes
it from the element it passes, a jump resolves it from the start, and a rewind knows it.
A cursor that is reachable at all is reached in two steps, by opening its sequence and
moving to its position.  So a position is as good a mark as a copy of the cursor.
-/

namespace SeqCursor

open Sequence

variable {S α : Type} [Sequence S α] [LawfulSequence S α]

namespace Cursor

variable {c m : Cursor S}

/-! ## Cursors with the right offset -/

namespace Sound

/-- An operation of the plain cursor at the place is an operation of the cursor. -/
theorem perform_of_plain [BEq α] (hc : c.Sound) {operation : Operation α}
    {reply : Reply (PlainCursor S) (Answer S α)} (hreply : c.plain.perform operation = .ok reply) :
    c.perform operation = .ok (reply.mapCursor PlainCursor.locate) := by
  have hperform := PlainCursor.perform_locate_of_eq_ok hc.admissible hreply
  rwa [hc.locate_plain] at hperform

/-- A run is answered to its end, and keeps to the sequence. -/
theorem run [BEq α] (hc : c.Sound) (operations : List (Operation α)) :
    ∃ reply, c.run operations = .ok reply ∧ reply.cursor.Sound ∧
      reply.cursor.contents = c.contents := by
  obtain ⟨plain, -, hreal, hadmissible, hsequence⟩ :=
    PlainCursor.exists_run hc.admissible operations
  rw [hc.locate_plain] at hreal
  exact ⟨_, hreal, PlainCursor.sound_locate hadmissible, hsequence⟩

omit [LawfulSequence S α] in
/-- Sequence and position determine the cursor. -/
theorem eq_of_position_eq (hc : c.Sound) (hm : m.Sound) (hcontents : c.contents = m.contents)
    (hposition : c.position = m.position) : c = m := by
  have hplain : c.plain = m.plain := by
    rw [plain, plain]
    exact congr (congrArg PlainCursor.mk hcontents) hposition
  rw [← hc.locate_plain, hplain, hm.locate_plain]

/-- A move to where another cursor is on the same sequence makes a copy of it. -/
theorem seek_position (hc : c.Sound) (hm : m.Sound) (hcontents : c.contents = m.contents) :
    c.seek m.position = .ok ⟨some m.position, m, []⟩ := by
  have hseek := PlainCursor.seek_locate hc.admissible m.position
  have hsequence : c.sequence = m.sequence := hcontents
  have hrange : beforeFirst ≤ m.position ∧ m.position ≤ c.plain.length := by
    refine ⟨hm.coherent.beforeFirst_le, ?_⟩
    change m.position ≤ Sequence.length c.sequence
    rw [hsequence]
    exact hm.coherent.position_le
  have hplace : c.plain.moveTo m.position = m.plain := by
    rw [plain, plain, PlainCursor.moveTo, hsequence]
  rw [hc.locate_plain, PlainCursor.seek_of_range hrange, hplace] at hseek
  rw [hseek, Reply.mapCursor, hm.locate_plain]

theorem rewind (hc : c.Sound) : c.rewind.Sound := by
  have hrewind := PlainCursor.rewind_locate c.plain
  rw [hc.locate_plain] at hrewind
  rw [hrewind]
  exact PlainCursor.sound_locate hc.admissible.rewind

theorem seekEnd (hc : c.Sound) :
    ∃ last, c.seekEnd = .ok last ∧ last.Sound ∧ last.contents = c.contents ∧
      last.position = c.length := by
  have hend := PlainCursor.seekEnd_locate hc.admissible
  rw [hc.locate_plain] at hend
  refine ⟨_, hend, PlainCursor.sound_locate hc.admissible.seekEnd, rfl, ?_⟩
  exact congrArg Nat.cast hc.coherent.length_eq.symm

/-- Opening the sequence and moving to the position leads to the cursor. -/
theorem reachable [BEq α] (hc : c.Sound) : c.Reachable := by
  have hopen : (Cursor.on c.sequence).Sound := Sound.on hc.addressable
  have hseek : (Cursor.on c.sequence).seek c.position = .ok ⟨some c.position, c, []⟩ :=
    hopen.seek_position hc rfl
  have hrun : Session.run { input := c.sequence } [.on .input, .act 0 (.seek c.position)] =
      .ok [⟨.opened 0, ⟨c.sequence, #[Cursor.on c.sequence]⟩, some 0, []⟩,
        ⟨.answered (.sought (some c.position)), ⟨c.sequence, #[c]⟩, some 0, []⟩] := by
    change ((((Cursor.on c.sequence).seek c.position >>= _) >>= _) >>= _) >>= _ = _
    rw [hseek]
    rfl
  refine ⟨c.sequence, _, _, hc.addressable, hrun, _,
    List.mem_cons_of_mem _ (List.mem_singleton.mpr rfl), ?_⟩
  exact Array.mem_singleton.mpr rfl

end Sound

/-- On a text with characters of one to four bytes, each place is reached with the offset
that belongs to it. -/
theorem reachable_mixed_widths {position : Int} {offset : Nat}
    (hplace : beforeFirst ≤ position ∧ position ≤ Sequence.length "aé🦀b" ∧
      offset = offsetOf "aé🦀b" (position + 1).toNat) :
    (Cursor.mk "aé🦀b" position 4 offset).Reachable := by
  obtain ⟨hlow, hhigh, hoffset⟩ := hplace
  have hlength : 4 = Sequence.length "aé🦀b" := rfl
  exact Sound.reachable ⟨⟨hlength, hlow, hhigh, hoffset⟩, Text.addressable_mixed_widths⟩

/-- The reachable cursors are those with the right offset. -/
theorem reachable_iff_sound [BEq α] : c.Reachable ↔ c.Sound :=
  ⟨Reachable.sound, Sound.reachable⟩

/-- Whatever is done with a cursor, a move to the position that it had makes it the same
cursor again, offset included, and so does a move of any other cursor on its sequence:
what shows the same position is the same cursor.  The place before the first element and
the end are positions like any other. -/
theorem positions_are_marks [BEq α] (hm : m.Reachable) :
    (∀ operations : List (Operation α), ∃ reply, m.run operations = .ok reply ∧
      reply.cursor.seek m.position = .ok ⟨some m.position, m, []⟩) ∧
    (∀ c : Cursor S, c.Reachable → c.contents = m.contents →
      c.seek m.position = .ok ⟨some m.position, m, []⟩ ∧ (c.position = m.position → c = m)) ∧
    m.seek beforeFirst = .ok ⟨some beforeFirst, m.rewind, []⟩ ∧
    ∃ last, m.seekEnd = .ok last ∧ m.seek m.length = .ok ⟨some (m.length : Int), last, []⟩ := by
  have hsound := hm.sound
  refine ⟨?_, ?_, ?_, ?_⟩
  · intro operations
    obtain ⟨reply, hreply, hafter, hcontents⟩ := hsound.run operations
    exact ⟨reply, hreply, hafter.seek_position hsound hcontents⟩
  · intro c hc hcontents
    exact ⟨hc.sound.seek_position hsound hcontents,
      hc.sound.eq_of_position_eq hsound hcontents⟩
  · exact hsound.seek_position hsound.rewind rfl
  · obtain ⟨last, hlast, hafter, hcontents, hposition⟩ := hsound.seekEnd
    rw [← hposition]
    exact ⟨last, hlast, hsound.seek_position hafter hcontents.symm⟩

/-- Back from the end to a character of four bytes, with a move that is refused on the
way, and from a place that was reached element by element. -/
theorem positions_are_marks_mixed_widths :
    (Cursor.mk "aé🦀b" 1 4 3).Reachable ∧
    (∃ reply, (Cursor.mk "aé🦀b" 1 4 3).run [.upTo 'b', .next, .seek 9, .rewind, .next] =
        .ok reply ∧
      reply.cursor.seek 1 = .ok ⟨some 1, Cursor.mk "aé🦀b" 1 4 3, []⟩) ∧
    (Cursor.mk "aé🦀b" 4 4 8).Reachable ∧
    (Cursor.mk "aé🦀b" 4 4 8).seek 1 = .ok ⟨some 1, Cursor.mk "aé🦀b" 1 4 3, []⟩ := by
  have hmark : (Cursor.mk "aé🦀b" 1 4 3).Reachable := reachable_mixed_widths (by decide +kernel)
  have hlast : (Cursor.mk "aé🦀b" 4 4 8).Reachable := reachable_mixed_widths (by decide +kernel)
  have hpositions := positions_are_marks hmark
  exact ⟨hmark, hpositions.1 _, hlast, (hpositions.2.1 _ hlast rfl).1⟩

end Cursor

end SeqCursor
