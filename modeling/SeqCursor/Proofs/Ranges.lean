import SeqCursor.Proofs.SessionInvariant

/-!
# Ranges

A range is opened under a check or clamped.  The check counts elements, while a clamped range
of a text is cut at byte offsets, and both draw the same line: a range passes if it is not
inverted and ends within the sequence, and then nothing is clamped.  A range that does not
pass is clamped to one that does, so to clamp a range is to repair it first and to check it
then.
-/

namespace SeqCursor

open Sequence

variable {S α : Type} [Sequence S α]

/-- What becomes of a range of `s` under the check, which answers `opening`, and clamped, where
`ranged` is opened on it. -/
structure Cursor.OpensRange (s : S) (start stop : Nat) (opening : Opening S)
    (ranged : Cursor S) : Prop where
  checked : onCheckedRange s start stop = .ok opening
  clamped : onRange s start stop = .ok ranged
  fresh : ranged = on ranged.contents ∧ ranged.position = -1
  opened_iff : (∃ c, opening.outcome = .ok c) ↔ start ≤ stop ∧ stop ≤ Sequence.length s
  opened : ∀ c, opening.outcome = .ok c →
    c = ranged ∧ c.length = stop - start ∧ Sequence.length c.contents = stop - start ∧
      ∀ index < stop - start, get? c.contents index = get? s (start + index)
  refused : ∀ error, opening.outcome = .error error →
    error = .rangeOutOfBounds start stop (Sequence.length s) ∧
      error.position = min (start : Int) maxPosition
  /-- A range that has been clamped passes the check and leaves no notice. -/
  repaired : onCheckedRange s (min start (min stop (Sequence.length s)))
    (min stop (Sequence.length s)) = .ok ⟨.ok ranged, []⟩

/-- A list is cut in the same places at bounds that are held at its end. -/
theorem drop_take_of_clamped (elements : List α) (start stop : Nat) :
    (elements.take (min stop elements.length)).drop (min start (min stop elements.length)) =
      (elements.take stop).drop start := by
  rw [← List.take_eq_take_min, ← List.length_take]
  rcases Nat.le_total start (elements.take stop).length with hstart | hstart
  · rw [Nat.min_eq_left hstart]
  · -- Cut from behind its end, the list leaves nothing, from wherever that is.
    rw [Nat.min_eq_right hstart, List.drop_length, List.drop_of_length_le hstart]

namespace Sequence

variable [LawfulSequence S α] {s : S} {start stop : Nat}

theorem length_window (hstop : stop ≤ length s) :
    length (ofList (((toList s).take stop).drop start) : S) = stop - start := by
  rw [LawfulSequence.length_eq] at hstop
  rw [length_ofList, List.length_drop, List.length_take, Nat.min_eq_left hstop]

/-- The elements of a window are those of the sequence, counted from its start. -/
theorem get?_window {index : Nat} (hindex : index < stop - start) :
    get? (ofList (((toList s).take stop).drop start) : S) index = get? s (start + index) := by
  rw [LawfulSequence.get?_eq, LawfulSequence.get?_eq, LawfulSequence.toList_ofList,
    List.getElem?_drop, List.getElem?_take_of_lt (by omega)]

end Sequence

namespace Cursor

variable [LawfulSequence S α] {s : S} {start stop : Nat}

theorem onCheckedRange_of_le (hrange : start ≤ stop ∧ stop ≤ Sequence.length s) :
    onCheckedRange s start stop =
      .ok ⟨.ok (on (ofList (((toList s).take stop).drop start) : S)), []⟩ := by
  rw [onCheckedRange_eq, if_neg (by omega)]

theorem onCheckedRange_of_not_le (hrange : ¬ (start ≤ stop ∧ stop ≤ Sequence.length s)) :
    onCheckedRange s start stop =
      .ok ⟨.error (.rangeOutOfBounds start stop (Sequence.length s)),
        [.rejectedRange start stop (Sequence.length s)]⟩ := by
  rw [onCheckedRange_eq, if_pos (by omega)]

theorem onCheckedRange_of_clamped (s : S) (start stop : Nat) :
    onCheckedRange s (min start (min stop (Sequence.length s))) (min stop (Sequence.length s)) =
      .ok ⟨.ok (on (ofList (((toList s).take stop).drop start) : S)), []⟩ := by
  rw [onCheckedRange_of_le ⟨Nat.min_le_right .., Nat.min_le_right ..⟩, LawfulSequence.length_eq,
    drop_take_of_clamped]

theorem exists_opensRange (s : S) (start stop : Nat) :
    ∃ opening ranged, OpensRange s start stop opening ranged := by
  by_cases hrange : start ≤ stop ∧ stop ≤ Sequence.length s
  · refine ⟨_, _, onCheckedRange_of_le hrange, onRange_eq s start stop, ⟨rfl, rfl⟩,
      iff_of_true ⟨_, rfl⟩ hrange, ?_, ?_, onCheckedRange_of_clamped s start stop⟩
    · intro c hc
      obtain rfl := Except.ok.inj hc
      have hlength : Sequence.length (ofList (((toList s).take stop).drop start) : S) =
          stop - start := length_window hrange.2
      exact ⟨rfl, hlength, hlength, fun _ hindex => get?_window hindex⟩
    · intro error herror
      cases herror
  · refine ⟨_, _, onCheckedRange_of_not_le hrange, onRange_eq s start stop, ⟨rfl, rfl⟩,
      iff_of_false ?_ hrange, ?_, ?_, onCheckedRange_of_clamped s start stop⟩
    · rintro ⟨c, hc⟩
      cases hc
    · intro c hc
      cases hc
    · intro error herror
      obtain rfl := Except.error.inj herror
      exact ⟨rfl, ReadError.position_rangeOutOfBounds start stop _⟩

end Cursor

/-- A session cannot tell a range that it opens clamped from the repaired one under the
check. -/
theorem Session.step_onRange [LawfulSequence S α] [BEq α] {session : Session S} {base : Base}
    {s : S} (hbase : session.resolve base = .ok s) (start stop : Nat) :
    session.step (.onRange base start stop) =
      session.step (.onCheckedRange base (min start (min stop (Sequence.length s)))
        (min stop (Sequence.length s))) := by
  simp only [step, hbase]
  change (Cursor.onRange s start stop >>= _) = (Cursor.onCheckedRange s _ _ >>= _)
  rw [Cursor.onRange_eq, Cursor.onCheckedRange_of_clamped]
  rfl

/-- On every sequence the check passes the ranges that lie within it, and opens what is opened
clamped; it refuses all others by an error that says what was asked for.  Every range is
opened clamped, and that is to repair it and to check it then, whatever a session opens it
on: its input, or what a cursor has or has left. -/
theorem clamping_repairs_then_checks [LawfulSequence S α] [BEq α] :
    (∀ (s : S) (start stop : Nat),
      ∃ opening ranged, Cursor.OpensRange s start stop opening ranged) ∧
    (∀ (session : Session S) (base : Base) (s : S) (start stop : Nat),
      session.resolve base = .ok s →
      session.step (.onRange base start stop) =
        session.step (.onCheckedRange base (min start (min stop (Sequence.length s)))
          (min stop (Sequence.length s)))) := by
  constructor
  · exact Cursor.exists_opensRange
  · intro session base s start stop hbase
    exact Session.step_onRange hbase start stop

/-- Characters of two and four bytes within a text, an inverted range from behind every
position, and a range of what a cursor has left that ends behind it. -/
theorem clamping_repairs_then_checks_mixed_widths :
    (∃ opening, Cursor.OpensRange "aé🦀b" 1 3 opening (Cursor.on "é🦀") ∧
      opening.outcome = .ok (Cursor.on "é🦀")) ∧
    (∃ opening, Cursor.OpensRange "aé🦀b" maxIndex 1 opening (Cursor.on "") ∧
      opening.outcome = .error (.rangeOutOfBounds maxIndex 1 4) ∧
      (ReadError.rangeOutOfBounds maxIndex 1 4).position = maxPosition) ∧
    (Session.mk "aé🦀b" #[Cursor.mk "aé🦀b" 0 4 1]).resolve (.remaining 0) = .ok "é🦀b" ∧
    (Session.mk "aé🦀b" #[Cursor.mk "aé🦀b" 0 4 1]).step (.onRange (.remaining 0) 2 maxIndex) =
      (Session.mk "aé🦀b" #[Cursor.mk "aé🦀b" 0 4 1]).step
        (.onCheckedRange (.remaining 0) 2 3) := by
  have hrest : (Session.mk "aé🦀b" #[Cursor.mk "aé🦀b" 0 4 1]).resolve (.remaining 0) =
      .ok "é🦀b" := by
    rfl
  obtain ⟨inside, within, hinside⟩ := clamping_repairs_then_checks.1 "aé🦀b" 1 3
  obtain rfl : Cursor.on "é🦀" = within := Except.ok.inj hinside.clamped
  obtain ⟨c, hc⟩ := hinside.opened_iff.mpr (by decide)
  obtain rfl := (hinside.opened c hc).1
  obtain ⟨outside, empty, houtside⟩ := clamping_repairs_then_checks.1 "aé🦀b" maxIndex 1
  obtain rfl : Cursor.on "" = empty := Except.ok.inj houtside.clamped
  have hrefused : outside.outcome = .error (.rangeOutOfBounds maxIndex 1 4) := by
    cases houtcome : outside.outcome with
    | ok c => exact absurd (houtside.opened_iff.mp ⟨c, houtcome⟩) (by decide)
    | error error => rw [(houtside.refused error houtcome).1]; rfl
  have hstep := clamping_repairs_then_checks.2 _ _ _ 2 maxIndex hrest
  have hstop : min maxIndex (Sequence.length "é🦀b") = 3 := by decide +kernel
  rw [hstop] at hstep
  exact ⟨⟨inside, hinside, hc⟩, ⟨outside, houtside, hrefused, (houtside.refused _ hrefused).2⟩,
    hrest, hstep⟩

end SeqCursor
