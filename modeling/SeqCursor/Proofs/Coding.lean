import SeqCursor.Proofs.PlainRefinement

/-!
# Sequences in code

A sequence can be written down as an array, with every element put into a code of
its own.  A plain cursor knows its sequence by the elements only; where the code
keeps equality, each operation of a plain cursor therefore commutes with coding.
-/

namespace SeqCursor

open Sequence

variable {S T α β : Type}

/-! ## Requests and answers in code -/

/-- The same request, with the values sought put into code. -/
def Operation.map (code : α → β) : Operation α → Operation β
  | .position => .position
  | .isEmpty => .isEmpty
  | .atEnd => .atEnd
  | .peek => .peek
  | .current => .current
  | .next => .next
  | .demand => .demand
  | .accept value => .accept (code value)
  | .nextMatches value => .nextMatches (code value)
  | .upTo value => .upTo (code value)
  | .upToEnd => .upToEnd
  | .skipPast value => .skipPast (code value)
  | .take count => .take count
  | .remaining => .remaining
  | .contents => .contents
  | .reversed => .reversed
  | .visitRemaining => .visitRemaining
  | .seek target => .seek target
  | .skip move => .skip move
  | .rewind => .rewind
  | .seekEnd => .seekEnd

/-- The same answer, with parts and elements put into code. -/
def Answer.map (part : S → T) (code : α → β) : Answer S α → Answer T β
  | .done => .done
  | .decided holds => .decided holds
  | .position place => .position place
  | .sought place? => .sought place?
  | .element found? => .element (found?.map code)
  | .demanded found => .demanded (code found)
  | .failed error => .failed error
  | .part whole => .part (part whole)
  | .reversed part? => .reversed (part?.map part)
  | .visited elements => .visited (elements.map code)

variable [Sequence S α]

/-- The elements of a sequence as an array, each of them in code. -/
def Sequence.coded (code : α → β) (s : S) : Array β :=
  ((toList s).map code).toArray

/-- The plain cursor at the same position of the coded sequence. -/
def PlainCursor.coded (code : α → β) (c : PlainCursor S) : PlainCursor (Array β) :=
  ⟨Sequence.coded code c.sequence, c.position⟩

/-! ## Sequences in code -/

namespace Sequence

variable (code : α → β) (s : S)

@[simp]
theorem toList_coded : toList (coded code s) = (toList s).map code := rfl

variable [LawfulSequence S α]

@[simp]
theorem length_coded : Sequence.length (coded code s) = Sequence.length s := by
  rw [LawfulSequence.length_eq, LawfulSequence.length_eq, toList_coded, List.length_map]

theorem get?_coded (index : Nat) : get? (coded code s) index = (get? s index).map code := by
  rw [LawfulSequence.get?_eq, LawfulSequence.get?_eq, toList_coded, List.getElem?_map]

theorem coded_ofList (elements : List α) :
    coded code (ofList elements : S) = ofList (elements.map code) := by
  rw [coded, LawfulSequence.toList_ofList]
  rfl

theorem slice_coded (start stop : Nat) :
    slice (coded code s) start stop = (slice s start stop).map (coded code) := by
  rw [LawfulSequence.slice_eq, LawfulSequence.slice_eq, toList_coded, ← List.map_take,
    ← List.map_drop, ← coded_ofList (S := S)]
  rfl

variable {s} in
theorem addressable_coded (hs : Addressable s) : Addressable (coded code s) := by
  apply Indexed.addressable
  have hlength := hs.length_lt
  rw [← length_coded code s] at hlength
  exact hlength

end Sequence

/-- The same reply, with its answer and its cursor put into code. -/
def Reply.coded {C D : Type} (cursorCoded : C → D) (code : α → β) (reply : Reply C (Answer S α)) :
    Reply D (Answer (Array β) β) :=
  (reply.map (Answer.map (Sequence.coded code) code)).mapCursor cursorCoded

/-! ## Plain cursors in code -/

namespace PlainCursor

variable (code : α → β) (c : PlainCursor S)

theorem coded_moveTo (position : Int) :
    (c.moveTo position).coded code = (c.coded code).moveTo position := rfl

theorem rest_coded : (c.coded code).rest = c.rest.map code := by
  change ((toList c.sequence).map code).drop _ = _
  rw [← List.map_drop]
  rfl

variable [LawfulSequence S α]

theorem length_coded : (c.coded code).length = c.length :=
  Sequence.length_coded code c.sequence

theorem elementAt_coded (position : Int) :
    (c.coded code).elementAt position = (c.elementAt position).map code := by
  simp only [elementAt]
  by_cases hfirst : 0 ≤ position
  · rw [if_pos hfirst, if_pos hfirst]
    exact get?_coded code c.sequence position.toNat
  · rw [if_neg hfirst, if_neg hfirst]
    rfl

theorem peek_coded : (c.coded code).peek = c.peek.map code :=
  elementAt_coded code c (c.position + 1)

theorem current_coded : (c.coded code).current = c.current.map code :=
  elementAt_coded code c c.position

theorem atEnd_coded : (c.coded code).atEnd = c.atEnd := by
  simp only [atEnd, length_coded]
  rfl

theorem advance_coded : (c.coded code).advance = c.advance.coded code := by
  simp only [advance, atEnd_coded]
  cases c.atEnd <;> rfl

theorem seek_coded (target : Int) :
    (c.coded code).seek target = (c.seek target).mapCursor (coded code) := by
  by_cases hrange : Cursor.beforeFirst ≤ target ∧ target ≤ c.length
  · have hcoded : Cursor.beforeFirst ≤ target ∧ target ≤ (c.coded code).length := by
      rwa [length_coded]
    rw [seek_of_range hrange, seek_of_range hcoded]
    rfl
  · have hcoded : ¬ (Cursor.beforeFirst ≤ target ∧ target ≤ (c.coded code).length) := by
      rwa [length_coded]
    rw [seek_of_not_range hrange, seek_of_not_range hcoded, length_coded]
    rfl

theorem skip_coded (move : Int) :
    (c.coded code).skip move = (c.skip move).mapCursor (coded code) := by
  have hsame : (c.coded code).position = c.position := rfl
  simp only [skip, hsame, seek_coded, length_coded]
  cases Position.add? c.position move with
  | none => rfl
  | some target =>
      change (if (c.seek target).answer.isSome then _ else _) =
        Reply.mapCursor _ (if (c.seek target).answer.isSome then _ else _)
      cases (c.seek target).answer.isSome <;> rfl

variable {c}

theorem admissible_coded (hc : c.Admissible) : (c.coded code).Admissible := by
  refine ⟨addressable_coded code hc.addressable, hc.beforeFirst_le, ?_⟩
  rw [length_coded]
  exact hc.position_le

variable {code}

/-- A scan of coded elements stops where the scan of the elements does. -/
theorem scan_coded (hc : c.Admissible) {stops : α → Bool} {stopsCoded : β → Bool}
    (hstops : ∀ element, stopsCoded (code element) = stops element) :
    (c.coded code).scan stopsCoded =
      (⟨(c.scan stops).1.passed.map code, (c.scan stops).1.stopper?.map code⟩,
        (c.scan stops).2.coded code) := by
  have hpassed : ((c.coded code).rest.takeWhile (!stopsCoded ·)) =
      (c.rest.takeWhile (!stops ·)).map code := by
    rw [rest_coded, List.takeWhile_map]
    simp only [Function.comp_def, hstops]
  have hstopper : (c.coded code).rest.find? stopsCoded = (c.rest.find? stops).map code := by
    rw [rest_coded, List.find?_map]
    simp only [Function.comp_def, hstops]
  have htarget : (c.coded code).scanTarget stopsCoded = c.scanTarget stops := by
    simp only [scanTarget, hpassed, List.length_map, length_coded]
    rfl
  rw [scan_eq (admissible_coded code hc), scan_eq hc, hpassed, hstopper, htarget, coded_moveTo,
    List.map_toArray]

variable [BEq α] [BEq β]

/-- Every operation of a plain cursor commutes with coding. -/
theorem perform_coded (hc : c.Admissible)
    (hcode : ∀ left right : α, (code left == code right) = (left == right))
    (operation : Operation α) :
    (c.coded code).perform (operation.map code) =
      (c.perform operation).map (Reply.coded (coded code) code) := by
  have hmatches (value : α) :
      (c.coded code).peek.any (· == code value) = c.peek.any (· == value) := by
    rw [peek_coded]
    cases c.peek with
    | none => rfl
    | some element => exact hcode element value
  have hscan (value : α) : (c.coded code).scan (· == code value) =
      (⟨(c.scan (· == value)).1.passed.map code, (c.scan (· == value)).1.stopper?.map code⟩,
        (c.scan (· == value)).2.coded code) :=
    scan_coded hc fun element => hcode element value
  have hpart (elements : Array α) :
      (ofList (elements.map code).toList : Array β) =
        Sequence.coded code (ofList elements.toList : S) := by
    rw [coded_ofList, Array.toList_map]
  cases operation with
  | position => rfl
  | isEmpty =>
      change Except.ok (Reply.mk (Answer.decided ((c.coded code).length == 0)) _ []) = _
      rw [length_coded]
      rfl
  | atEnd =>
      change Except.ok (Reply.mk (Answer.decided (c.coded code).atEnd) _ []) = _
      rw [atEnd_coded]
      rfl
  | peek =>
      change Except.ok (Reply.mk (Answer.element (c.coded code).peek) _ []) = _
      rw [peek_coded]
      rfl
  | current =>
      change Except.ok (Reply.mk (Answer.element (c.coded code).current) _ []) = _
      rw [current_coded]
      rfl
  | next =>
      change Except.ok (Reply.mk (Answer.element (c.coded code).peek) (c.coded code).advance []) = _
      rw [peek_coded, advance_coded]
      rfl
  | demand =>
      change (c.coded code).perform .demand = _
      rw [perform, perform, peek_coded, advance_coded]
      cases c.peek <;> rfl
  | accept value =>
      change (if (c.coded code).peek.any (· == code value) then
          Except.ok (Reply.mk (Answer.decided true) (c.coded code).advance [])
        else _) = Except.map _ (if c.peek.any (· == value) then _ else _)
      rw [hmatches, advance_coded]
      cases c.peek.any (· == value) <;> rfl
  | nextMatches value =>
      change Except.ok (Reply.mk (Answer.decided ((c.coded code).peek.any (· == code value)))
        (c.coded code).advance []) = _
      rw [hmatches, advance_coded]
      rfl
  | upTo value =>
      change Except.ok (Reply.mk (Answer.part (ofList ((c.coded code).scan _).1.passed.toList))
        ((c.coded code).scan _).2 []) = _
      rw [hscan value, hpart]
      rfl
  | upToEnd =>
      change Except.ok (Reply.mk (Answer.part (ofList ((c.coded code).scan _).1.passed.toList))
        ((c.coded code).scan _).2 []) = _
      rw [scan_coded hc fun _ => rfl, hpart]
      rfl
  | skipPast value =>
      change (if ((c.coded code).scan (· == code value)).1.stopper?.isSome then
          Except.ok (Reply.mk (Answer.decided true)
            (((c.coded code).scan (· == code value)).2.skip 1).cursor
            (((c.coded code).scan (· == code value)).2.skip 1).notices)
        else
          Except.ok (Reply.mk (Answer.decided false)
            ((c.coded code).scan (· == code value)).2 [])) =
        Except.map _ (if (c.scan (· == value)).1.stopper?.isSome then _ else _)
      rw [hscan value]
      dsimp only
      rw [skip_coded, Option.isSome_map]
      cases (c.scan (· == value)).1.stopper?.isSome <;> rfl
  | take count =>
      change (slice (Sequence.coded code c.sequence) c.position.toNat
          (c.position.toNat + count) >>= fun taken =>
            Except.ok (Reply.mk (Answer.part taken)
              ((c.coded code).moveTo (min (c.position.toNat + count) (c.coded code).length : Nat))
              (if (c.coded code).length < c.position.toNat + count then
                [.clampedTake count c.position.toNat (c.coded code).length]
              else
                []))) = Except.map _ (slice c.sequence c.position.toNat
          (c.position.toNat + count) >>= _)
      rw [slice_coded, length_coded, LawfulSequence.slice_eq]
      rfl
  | remaining =>
      change (slice (Sequence.coded code c.sequence) (c.position + 1).toNat
          (c.coded code).length >>= fun rest =>
            Except.ok (Reply.mk (Answer.part rest) (c.coded code) [])) =
        Except.map _ (slice c.sequence (c.position + 1).toNat c.length >>= _)
      rw [slice_coded, length_coded, slice_rest]
      rfl
  | contents => rfl
  | reversed => rfl
  | visitRemaining =>
      change (slice (Sequence.coded code c.sequence) (c.position + 1).toNat
          (c.coded code).length >>= fun rest =>
            Except.ok (Reply.mk (Answer.visited (toList rest)) (c.coded code) [])) =
        Except.map _ (slice c.sequence (c.position + 1).toNat c.length >>= _)
      rw [slice_coded, length_coded, slice_rest]
      rfl
  | seek target =>
      change Except.ok (((c.coded code).seek target).map Answer.sought) = _
      rw [seek_coded]
      rfl
  | skip move =>
      change Except.ok (((c.coded code).skip move).map fun _ => Answer.done) = _
      rw [skip_coded]
      rfl
  | rewind => rfl
  | seekEnd =>
      change Except.ok (Reply.mk Answer.done ((c.coded code).moveTo (c.coded code).length) []) = _
      rw [length_coded]
      rfl

end PlainCursor

end SeqCursor
