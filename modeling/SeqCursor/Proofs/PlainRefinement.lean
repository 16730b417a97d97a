import SeqCursor.Proofs.Reading

/-!
# Refinement of the plain cursor

The cursor with a cached offset and the plain cursor answer alike.  One operation
of a coherent cursor is the same operation of the plain cursor at its place, with
the offset put beside the result; a run of operations follows by induction.
-/

namespace SeqCursor

open Sequence

variable {S α : Type} [Sequence S α] [LawfulSequence S α]

namespace PlainCursor

variable {c : PlainCursor S}

theorem upTo_locate [BEq α] (hc : c.Admissible) (value : α) :
    c.locate.upTo value =
      .ok ⟨ofList (c.scan (· == value)).1.passed.toList, (c.scan (· == value)).2.locate, []⟩ := by
  rw [Cursor.upTo, scan_locate hc]
  rfl

theorem upToEnd_locate (hc : c.Admissible) :
    c.locate.upToEnd =
      .ok ⟨ofList (c.scan fun _ => false).1.passed.toList,
        (c.scan fun _ => false).2.locate, []⟩ := by
  rw [Cursor.upToEnd, scan_locate hc]
  rfl

theorem skipPast_locate [BEq α] (hc : c.Admissible) (value : α) :
    c.locate.skipPast value =
      .ok (if (c.scan (· == value)).1.stopper?.isSome then
        ⟨true, ((c.scan (· == value)).2.skip 1).cursor.locate,
          ((c.scan (· == value)).2.skip 1).notices⟩
      else
        ⟨false, (c.scan (· == value)).2.locate, []⟩) := by
  have hafter := admissible_scan hc (· == value)
  have hscan := scan_locate hc (· == value)
  generalize c.scan (· == value) = found at hafter hscan ⊢
  obtain ⟨⟨passed, stopper?⟩, after⟩ := found
  rw [Cursor.skipPast, hscan]
  cases stopper? with
  | none => rfl
  | some element =>
      change (after.locate.skip 1 >>= _) = _
      rw [skip_locate hafter]
      rfl

/-- An operation of a coherent cursor is the operation of the plain cursor at its
place, with the offset put beside the result. -/
theorem perform_locate [BEq α] (hc : c.Admissible) (operation : Operation α) :
    c.locate.perform operation = (c.perform operation).map (Reply.mapCursor locate) := by
  cases operation with
  | position => rfl
  | isEmpty => rfl
  | atEnd =>
      change Except.ok (Reply.mk (Answer.decided c.locate.atEnd) c.locate []) = _
      rw [atEnd_locate hc]
      rfl
  | peek =>
      change c.locate.peek >>= _ = _
      rw [peek_locate hc]
      rfl
  | current =>
      change Except.ok (Reply.mk (Answer.element c.locate.current) c.locate []) = _
      rw [current_locate]
      rfl
  | next =>
      change c.locate.next >>= _ = _
      rw [next_locate hc]
      rfl
  | demand =>
      change c.locate.demand >>= _ = _
      rw [demand_locate hc, perform]
      cases c.peek <;> rfl
  | accept value =>
      change c.locate.accept value >>= _ =
        Except.map _ (if c.peek.any (· == value) then _ else _)
      rw [accept_locate hc]
      cases c.peek.any (· == value) <;> rfl
  | nextMatches value =>
      change c.locate.nextMatches value >>= _ = _
      rw [nextMatches_locate hc]
      rfl
  | upTo value =>
      change c.locate.upTo value >>= _ = _
      rw [upTo_locate hc]
      rfl
  | upToEnd =>
      change c.locate.upToEnd >>= _ = _
      rw [upToEnd_locate hc]
      rfl
  | skipPast value =>
      change c.locate.skipPast value >>= _ =
        Except.map _ (if (c.scan (· == value)).1.stopper?.isSome then _ else _)
      rw [skipPast_locate hc]
      cases (c.scan (· == value)).1.stopper?.isSome <;> rfl
  | take count =>
      change c.locate.take count >>= _ = Except.map _ (Sequence.slice c.sequence
        c.position.toNat (c.position.toNat + count) >>= _)
      rw [take_locate hc, LawfulSequence.slice_eq]
      rfl
  | remaining =>
      change c.locate.remaining >>= _ = Except.map _ (Sequence.slice c.sequence
        (c.position + 1).toNat c.length >>= _)
      rw [remaining_locate hc, slice_rest]
      rfl
  | contents => rfl
  | reversed => rfl
  | visitRemaining =>
      change c.locate.foldRemaining Array.push #[] >>= _ = Except.map _ (Sequence.slice c.sequence
        (c.position + 1).toNat c.length >>= _)
      rw [foldRemaining_locate hc, slice_rest, List.foldl_push_eq_append]
      change Except.ok (Reply.mk (Answer.visited _) _ []) =
        Except.ok (Reply.mk (Answer.visited _) _ [])
      rw [LawfulSequence.toList_ofList]
      simp
  | seek target =>
      change c.locate.seek target >>= _ = _
      rw [seek_locate hc]
      rfl
  | skip move =>
      change c.locate.skip move >>= _ = _
      rw [skip_locate hc]
      rfl
  | rewind =>
      change Except.ok (Reply.mk Answer.done c.locate.rewind []) = _
      rw [rewind_locate]
      rfl
  | seekEnd =>
      change c.locate.seekEnd >>= _ = _
      rw [seekEnd_locate hc]
      rfl

omit [LawfulSequence S α] in
/-- A relative move that stays within the sequence is made. -/
theorem skip_of_range (hc : c.Admissible) {move : Int}
    (hrange : Cursor.beforeFirst ≤ c.position + move ∧ c.position + move ≤ c.length) :
    c.skip move = ⟨(), c.moveTo (c.position + move), []⟩ := by
  have hfirst : (-1 : Int) ≤ c.position + move := hrange.1
  have hlength : (c.length : Int) < maxPosition := hc.addressable.length_lt
  have hadd : Position.add? c.position move = some (c.position + move) := by
    apply if_pos
    simp only [minPosition]
    omega
  rw [skip, hadd]
  dsimp only
  rw [seek_of_range hrange]
  rfl

omit [LawfulSequence S α] in
/-- Any other leads to the end, whether the machine ranges admit its target or not. -/
theorem cursor_skip_of_not_range {move : Int}
    (hrange : ¬ (Cursor.beforeFirst ≤ c.position + move ∧ c.position + move ≤ c.length)) :
    (c.skip move).cursor = c.moveTo c.length := by
  rw [skip, Position.add?]
  by_cases hsum : minPosition ≤ c.position + move ∧ c.position + move ≤ maxPosition
  · rw [if_pos hsum]
    dsimp only
    rw [seek_of_not_range hrange]
    rfl
  · rw [if_neg hsum]

omit [LawfulSequence S α] in
theorem admissible_skip (hc : c.Admissible) (move : Int) :
    (c.skip move).cursor.Admissible ∧ (c.skip move).cursor.sequence = c.sequence := by
  by_cases hrange : Cursor.beforeFirst ≤ c.position + move ∧ c.position + move ≤ c.length
  · rw [skip_of_range hc hrange]
    exact ⟨hc.moveTo hrange.1 hrange.2, rfl⟩
  · rw [cursor_skip_of_not_range hrange]
    exact ⟨hc.seekEnd, rfl⟩

omit [LawfulSequence S α] in
/-- A move forward ends at its target or at the end, whichever comes first. -/
theorem cursor_skip_of_nonneg (hc : c.Admissible) {move : Int} (hmove : 0 ≤ move) :
    (c.skip move).cursor = c.moveTo (min (c.position + move) c.length) := by
  have hlow : (-1 : Int) ≤ c.position := hc.beforeFirst_le
  by_cases hrange : Cursor.beforeFirst ≤ c.position + move ∧ c.position + move ≤ c.length
  · rw [skip_of_range hc hrange, Int.min_eq_left hrange.2]
  · have hpast : (c.length : Int) ≤ c.position + move := by
      simp only [Cursor.beforeFirst] at hrange
      omega
    rw [cursor_skip_of_not_range hrange, Int.min_eq_right hpast]

omit [LawfulSequence S α] in
theorem sequence_advance (c : PlainCursor S) : c.advance.sequence = c.sequence := by
  rw [advance]
  cases c.atEnd <;> rfl

/-- Every operation is answered, and leaves the cursor at an admissible place of the
same sequence. -/
theorem exists_perform [BEq α] (hc : c.Admissible) (operation : Operation α) :
    ∃ reply, c.perform operation = .ok reply ∧
      reply.cursor.Admissible ∧ reply.cursor.sequence = c.sequence := by
  have hadvance : c.advance.Admissible ∧ c.advance.sequence = c.sequence :=
    ⟨hc.advance, sequence_advance c⟩
  have hscan (stops : α → Bool) :
      (c.scan stops).2.Admissible ∧ (c.scan stops).2.sequence = c.sequence :=
    ⟨admissible_scan hc stops, sequence_scan hc stops⟩
  cases operation with
  | position => exact ⟨_, rfl, hc, rfl⟩
  | isEmpty => exact ⟨_, rfl, hc, rfl⟩
  | atEnd => exact ⟨_, rfl, hc, rfl⟩
  | peek => exact ⟨_, rfl, hc, rfl⟩
  | current => exact ⟨_, rfl, hc, rfl⟩
  | next => exact ⟨_, rfl, hadvance⟩
  | demand =>
      rw [perform]
      cases c.peek with
      | some element => exact ⟨_, rfl, hadvance⟩
      | none => exact ⟨_, rfl, hc, rfl⟩
  | accept value =>
      change ∃ reply, (if c.peek.any (· == value) then _ else _) = Except.ok reply ∧ _
      cases c.peek.any (· == value) with
      | true => exact ⟨_, rfl, hadvance⟩
      | false => exact ⟨_, rfl, hc, rfl⟩
  | nextMatches value => exact ⟨_, rfl, hadvance⟩
  | upTo value => exact ⟨_, rfl, hscan _⟩
  | upToEnd => exact ⟨_, rfl, hscan _⟩
  | skipPast value =>
      have hafter := hscan (· == value)
      have hskip := admissible_skip hafter.1 1
      change ∃ reply, (if (c.scan (· == value)).1.stopper?.isSome then _ else _) =
        Except.ok reply ∧ _
      cases (c.scan (· == value)).1.stopper?.isSome with
      | true => exact ⟨_, rfl, hskip.1, hskip.2.trans hafter.2⟩
      | false => exact ⟨_, rfl, hafter⟩
  | take count =>
      change ∃ reply, (Sequence.slice c.sequence c.position.toNat
        (c.position.toNat + count) >>= _) = Except.ok reply ∧ _
      rw [LawfulSequence.slice_eq]
      exact ⟨_, rfl, hc.moveTo_index (Nat.min_le_right _ _), rfl⟩
  | remaining =>
      change ∃ reply, (Sequence.slice c.sequence (c.position + 1).toNat c.length >>= _) =
        Except.ok reply ∧ _
      rw [slice_rest]
      exact ⟨_, rfl, hc, rfl⟩
  | contents => exact ⟨_, rfl, hc, rfl⟩
  | reversed => exact ⟨_, rfl, hc, rfl⟩
  | visitRemaining =>
      change ∃ reply, (Sequence.slice c.sequence (c.position + 1).toNat c.length >>= _) =
        Except.ok reply ∧ _
      rw [slice_rest]
      exact ⟨_, rfl, hc, rfl⟩
  | seek target =>
      refine ⟨_, rfl, ?_⟩
      change (c.seek target).cursor.Admissible ∧ (c.seek target).cursor.sequence = c.sequence
      by_cases hrange : Cursor.beforeFirst ≤ target ∧ target ≤ c.length
      · rw [seek_of_range hrange]
        exact ⟨hc.moveTo hrange.1 hrange.2, rfl⟩
      · rw [seek_of_not_range hrange]
        exact ⟨hc, rfl⟩
  | skip move => exact ⟨_, rfl, admissible_skip hc move⟩
  | rewind => exact ⟨_, rfl, hc.rewind, rfl⟩
  | seekEnd => exact ⟨_, rfl, hc.seekEnd, rfl⟩

theorem Admissible.of_perform [BEq α] (hc : c.Admissible) {operation : Operation α}
    {reply : Reply (PlainCursor S) (Answer S α)} (hreply : c.perform operation = .ok reply) :
    reply.cursor.Admissible := by
  obtain ⟨same, hsame, hadmissible, -⟩ := exists_perform hc operation
  rwa [Except.ok.inj (hreply.symm.trans hsame)]

theorem perform_locate_of_eq_ok [BEq α] (hc : c.Admissible) {operation : Operation α}
    {reply : Reply (PlainCursor S) (Answer S α)} (hreply : c.perform operation = .ok reply) :
    c.locate.perform operation = .ok (reply.mapCursor locate) := by
  rw [perform_locate hc, hreply]
  rfl

omit [LawfulSequence S α] in
theorem observe_locate {reply : Reply (PlainCursor S) (Answer S α)}
    (hreply : reply.cursor.Admissible) :
    Cursor.observe (reply.mapCursor locate) = observe reply := by
  change Observation.mk reply.answer reply.notices reply.cursor.position
    reply.cursor.locate.atEnd = _
  rw [atEnd_locate hreply]
  rfl

/-- A run is answered by both cursors alike, and they end at the same place. -/
theorem exists_run [BEq α] (hc : c.Admissible) (operations : List (Operation α)) :
    ∃ plain, c.run operations = .ok plain ∧
      c.locate.run operations = .ok (plain.mapCursor locate) ∧
      plain.cursor.Admissible ∧ plain.cursor.sequence = c.sequence := by
  induction operations generalizing c with
  | nil => exact ⟨_, rfl, rfl, hc, rfl⟩
  | cons operation operations ih =>
      obtain ⟨reply, hreply, hadmissible, hsequence⟩ := exists_perform hc operation
      obtain ⟨later, hplain, hreal, hlater, hsame⟩ := ih hadmissible
      have hhead := perform_locate_of_eq_ok hc hreply
      refine ⟨_, run_cons hreply hplain, ?_, hlater, hsame.trans hsequence⟩
      rw [Cursor.run_cons hhead hreal, observe_locate hadmissible]
      rfl

end PlainCursor

/-- On every addressable sequence, the cursor that walks by storage offsets and the
plain one answer every run of operations alike: the same answers, notices, positions
and ends after every operation. -/
theorem run_agrees_with_plain [BEq α] {s : S} (hs : Addressable s)
    (operations : List (Operation α)) :
    ∃ real plain, (Cursor.on s).run operations = .ok real ∧
      (PlainCursor.on s).run operations = .ok plain ∧
      real.answer = plain.answer ∧ real.notices = plain.notices ∧
      real.cursor.contents = plain.cursor.sequence ∧
      real.cursor.position = plain.cursor.position ∧
      real.cursor.atEnd = plain.cursor.atEnd := by
  obtain ⟨plain, hplain, hreal, hadmissible, -⟩ :=
    PlainCursor.exists_run (PlainCursor.Admissible.on hs) operations
  rw [PlainCursor.locate_on] at hreal
  exact ⟨plain.mapCursor PlainCursor.locate, plain, hreal, hplain, rfl, rfl, rfl, rfl,
    PlainCursor.atEnd_locate hadmissible⟩

/-- Jumps between characters of different widths, a step past the last one, and moves
that are refused or overflow; and an array that is read in blocks. -/
theorem run_agrees_with_plain_mixed_widths :
    Addressable "aé🦀b" ∧ Addressable #[3, 1, 2] ∧
    (∃ real plain,
      (Cursor.on "aé🦀b").run
        [.seek 1, .next, .next, .next, .seek 5, .skip (-3), .upTo 'b', .skip maxPosition] =
          .ok real ∧
      (PlainCursor.on "aé🦀b").run
        [.seek 1, .next, .next, .next, .seek 5, .skip (-3), .upTo 'b', .skip maxPosition] =
          .ok plain ∧
      real.answer = plain.answer ∧ real.notices = plain.notices ∧
      real.cursor.contents = plain.cursor.sequence ∧
      real.cursor.position = plain.cursor.position ∧
      real.cursor.atEnd = plain.cursor.atEnd) ∧
    (∃ real plain,
      (Cursor.on #[3, 1, 2]).run [.take 1, .next, .take maxIndex] = .ok real ∧
      (PlainCursor.on #[3, 1, 2]).run [.take 1, .next, .take maxIndex] = .ok plain ∧
      real.answer = plain.answer ∧ real.notices = plain.notices ∧
      real.cursor.contents = plain.cursor.sequence ∧
      real.cursor.position = plain.cursor.position ∧
      real.cursor.atEnd = plain.cursor.atEnd) := by
  have htext : Addressable "aé🦀b" := Text.addressable_mixed_widths
  have harray : Addressable #[3, 1, 2] := Indexed.addressable (by decide)
  exact ⟨htext, harray, run_agrees_with_plain htext _, run_agrees_with_plain harray _⟩

end SeqCursor
