import SeqCursor.Proofs.Coherence

/-!
# Closed forms of reading

Reads and scans of a coherent cursor, in terms of the plain cursor at its place.
The elements that have not been read yet form a list, `PlainCursor.rest`.  A read
takes its head, a scan takes the longest initial part without a stopping element
and then, if there is one, the element that stopped it.
-/

namespace SeqCursor.PlainCursor

open Sequence

variable {S α : Type} [Sequence S α]
variable {c : PlainCursor S}

/-- The elements that have not been read yet. -/
def rest (c : PlainCursor S) : List α :=
  (toList c.sequence).drop (c.position + 1).toNat

theorem advance_of_not_atEnd (hend : c.atEnd = false) :
    c.advance = c.moveTo (c.position + 1) := by
  rw [advance, hend]
  rfl

variable [LawfulSequence S α]

/-! ## Single reads -/

theorem next_locate (hc : c.Admissible) :
    c.locate.next = .ok ⟨c.peek, c.advance.locate, []⟩ := by
  rw [Cursor.next, advance, atEnd_locate hc]
  cases hend : c.atEnd with
  | true =>
      rw [peek_eq_none hc (Int.le_add_one (length_le_of_atEnd hend))]
      rfl
  | false =>
      change (Position.succ c.position >>= _) = _
      rw [Position.succ_of_lt hc.position_lt, ahead_locate hc]
      cases hpeek : c.peek with
      | some element => rfl
      | none =>
          change Except.ok (Reply.mk none (Cursor.mk c.sequence (c.position + 1) c.length
            (offsetOf c.sequence (c.position + 1).toNat)) []) = _
          rw [← offsetOf_of_peek_eq_none hc hpeek]
          rfl

theorem demand_locate (hc : c.Admissible) :
    c.locate.demand = .ok
      (match c.peek with
      | some element => ⟨.ok element, c.advance.locate, []⟩
      | none => ⟨.error (.endOfStream c.position), c.locate, []⟩) := by
  rw [Cursor.demand, next_locate hc]
  cases c.peek <;> rfl

theorem accept_locate [BEq α] (hc : c.Admissible) (value : α) :
    c.locate.accept value = .ok
      (if c.peek.any (· == value) then ⟨true, c.advance.locate, []⟩
      else ⟨false, c.locate, []⟩) := by
  rw [Cursor.accept, advance, atEnd_locate hc]
  cases hend : c.atEnd with
  | true =>
      rw [peek_eq_none hc (Int.le_add_one (length_le_of_atEnd hend))]
      rfl
  | false =>
      rw [ahead_locate hc]
      cases hpeek : c.peek with
      | none => rfl
      | some element =>
          change (if element == value then _ else _) = _
          change _ = Except.ok (if element == value then _ else _)
          by_cases hequal : (element == value) = true
          · rw [if_pos hequal, if_pos hequal]
            change (Position.succ c.position >>= _) = _
            rw [Position.succ_of_lt hc.position_lt]
            rfl
          · rw [if_neg hequal, if_neg hequal]
            rfl

theorem nextMatches_locate [BEq α] (hc : c.Admissible) (value : α) :
    c.locate.nextMatches value = .ok ⟨c.peek.any (· == value), c.advance.locate, []⟩ := by
  rw [Cursor.nextMatches, next_locate hc]
  rfl

/-! ## Scans -/

omit [LawfulSequence S α] in
theorem rest_step (hc : c.Admissible) : (c.moveTo (c.position + 1)).rest = c.rest.tail := by
  change (toList c.sequence).drop (c.position + 1 + 1).toNat = _
  rw [hc.toNat_succ_succ, ← List.tail_drop]
  rfl

theorem head?_rest (hc : c.Admissible) : c.rest.head? = c.peek := by
  rw [peek_eq hc]
  exact List.head?_drop

theorem rest_eq_nil (hc : c.Admissible) (hpeek : c.peek = none) : c.rest = [] := by
  rw [← head?_rest hc] at hpeek
  exact List.head?_eq_none_iff.mp hpeek

theorem rest_eq_cons (hc : c.Admissible) {element : α} (hpeek : c.peek = some element) :
    c.rest = element :: (c.moveTo (c.position + 1)).rest := by
  rw [← head?_rest hc] at hpeek
  obtain ⟨later, hrest⟩ := List.head?_eq_some_iff.mp hpeek
  rw [rest_step hc, hrest, List.tail_cons]

/-- The slice that starts behind the position holds what has not been read. -/
theorem slice_rest (c : PlainCursor S) :
    Sequence.slice c.sequence (c.position + 1).toNat c.length = .ok (ofList c.rest) := by
  rw [LawfulSequence.slice_eq, List.take_of_length_le (Nat.le_of_eq c.length_eq.symm)]
  rfl

theorem foldRemaining_locate {β : Type} (hc : c.Admissible) (f : β → α → β) (init : β) :
    c.locate.foldRemaining f init = .ok (c.rest.foldl f init) := by
  rw [Cursor.foldRemaining, remaining_locate hc, slice_rest]
  change Except.ok ((toList (ofList c.rest : S)).foldl f init) = _
  rw [LawfulSequence.toList_ofList]

/-- The two loops run side by side: each step of one is a step of the other. -/
theorem scanFrom_locate (stops : α → Bool) (passed : Array α) (hc : c.Admissible) :
    Cursor.scanFrom stops passed c.locate =
      .ok ⟨(scanFrom stops passed c).1, (scanFrom stops passed c).2.locate, []⟩ := by
  induction passed, c using scanFrom.induct (S := S) stops with
  | case1 passed c hend =>
      have hatEnd : c.atEnd = true := decide_eq_true hend
      rw [scanFrom, if_pos hend]
      exact Cursor.scanFrom_of_atEnd stops passed ((atEnd_locate hc).trans hatEnd)
  | case2 passed c hend hpeek ih =>
      have hatEnd : c.atEnd = false := decide_eq_false hend
      rw [Cursor.scanFrom_of_next stops passed ((atEnd_locate hc).trans hatEnd) (next_locate hc),
        scanFrom, if_neg hend, hpeek, advance_of_not_atEnd hatEnd]
      exact ih (hc.step hatEnd)
  | case3 passed c hend element hpeek hstops =>
      have hatEnd : c.atEnd = false := decide_eq_false hend
      rw [Cursor.scanFrom_of_next stops passed ((atEnd_locate hc).trans hatEnd) (next_locate hc),
        scanFrom, if_neg hend, hpeek, advance_of_not_atEnd hatEnd]
      simp only [hstops, if_true]
      rfl
  | case4 passed c hend element hpeek hstops ih =>
      have hatEnd : c.atEnd = false := decide_eq_false hend
      rw [Cursor.scanFrom_of_next stops passed ((atEnd_locate hc).trans hatEnd) (next_locate hc),
        scanFrom, if_neg hend, hpeek, advance_of_not_atEnd hatEnd]
      simp only [hstops]
      exact ih (hc.step hatEnd)

theorem scan_locate (hc : c.Admissible) (stops : α → Bool) :
    c.locate.scan stops = .ok ⟨(c.scan stops).1, (c.scan stops).2.locate, []⟩ :=
  scanFrom_locate stops #[] hc

/-- The place of the element that stops a scan, or the end. -/
def scanTarget (c : PlainCursor S) (stops : α → Bool) : Int :=
  min (c.position + 1 + (c.rest.takeWhile (!stops ·)).length) c.length

theorem scanTarget_of_rest_eq_nil {stops : α → Bool} (hc : c.Admissible) (hrest : c.rest = []) :
    c.scanTarget stops = c.length := by
  have hlast : (toList c.sequence).length ≤ (c.position + 1).toNat :=
    List.drop_eq_nil_iff.mp hrest
  have hfirst := hc.position_succ_nonneg
  rw [← length_eq] at hlast
  rw [scanTarget]
  omega

/-- A scan passes the longest initial part of the rest without a stopping element. -/
theorem scanFrom_eq (stops : α → Bool) (passed : Array α) (hc : c.Admissible) :
    scanFrom stops passed c =
      (⟨passed ++ (c.rest.takeWhile (!stops ·)).toArray, c.rest.find? stops⟩,
        c.moveTo (c.scanTarget stops)) := by
  induction passed, c using scanFrom.induct (S := S) stops with
  | case1 passed c hend =>
      have hrest : c.rest = [] := rest_eq_nil hc (peek_eq_none hc (Int.le_add_one hend))
      have hposition : (c.length : Int) = c.position := Int.le_antisymm hend hc.position_le
      rw [scanFrom, if_pos hend, scanTarget_of_rest_eq_nil hc hrest, hrest, hposition]
      simp [moveTo]
  | case2 passed c hend hpeek ih =>
      -- The last element has been read, but the end is one step further on.
      have hnext := hc.step (decide_eq_false hend)
      have hrest : c.rest = [] := rest_eq_nil hc hpeek
      have hlater : (c.moveTo (c.position + 1)).rest = [] := by
        rw [rest_step hc, hrest, List.tail_nil]
      rw [scanFrom, if_neg hend, hpeek, scanTarget_of_rest_eq_nil hc hrest, hrest, ← hlater]
      refine (ih hnext).trans ?_
      change (_, c.moveTo ((c.moveTo (c.position + 1)).scanTarget stops)) = _
      rw [scanTarget_of_rest_eq_nil hnext hlater]
      rfl
  | case3 passed c hend element hpeek hstops =>
      have hrest := rest_eq_cons hc hpeek
      have htarget : c.scanTarget stops = c.position + 1 := by
        rw [scanTarget, hrest, List.takeWhile_cons_of_neg (by simp [hstops])]
        change min (c.position + 1 + 0) (c.length : Int) = _
        omega
      rw [scanFrom, if_neg hend, hpeek, htarget, hrest]
      simp [hstops, moveTo]
  | case4 passed c hend element hpeek hstops ih =>
      have hnext := hc.step (decide_eq_false hend)
      have hrest := rest_eq_cons hc hpeek
      have htarget : c.scanTarget stops = (c.moveTo (c.position + 1)).scanTarget stops := by
        rw [scanTarget, hrest, List.takeWhile_cons_of_pos (by simp [hstops]), List.length_cons]
        change min (c.position + 1 + ((_ + 1 : Nat) : Int)) (c.length : Int) =
          min (c.position + 1 + 1 + _) (c.length : Int)
        omega
      rw [scanFrom, if_neg hend, hpeek, htarget, hrest]
      simp only [hstops]
      refine (ih hnext).trans ?_
      simp [hstops, moveTo]

theorem scan_eq (hc : c.Admissible) (stops : α → Bool) :
    c.scan stops =
      (⟨(c.rest.takeWhile (!stops ·)).toArray, c.rest.find? stops⟩,
        c.moveTo (c.scanTarget stops)) := by
  rw [scan, scanFrom_eq stops #[] hc, Array.empty_append]

example : (on "é=🦀").scan (· == '=') = (⟨#['é'], some '='⟩, ⟨"é=🦀", 1⟩) := by
  decide +kernel

omit [LawfulSequence S α] in
theorem admissible_scanTarget (hc : c.Admissible) (stops : α → Bool) :
    (c.moveTo (c.scanTarget stops)).Admissible := by
  have hlow : (-1 : Int) ≤ c.position := hc.beforeFirst_le
  apply hc.moveTo
  · change (-1 : Int) ≤ _
    rw [scanTarget]
    omega
  · exact Int.min_le_right _ _

theorem admissible_scan (hc : c.Admissible) (stops : α → Bool) :
    (c.scan stops).2.Admissible := by
  rw [scan_eq hc]
  exact admissible_scanTarget hc stops

theorem sequence_scan (hc : c.Admissible) (stops : α → Bool) :
    (c.scan stops).2.sequence = c.sequence := by
  rw [scan_eq hc]
  rfl

/-! ## Blocks -/

omit [LawfulSequence S α] in
theorem length_lt_maxIndex (hs : Addressable c.sequence) : c.length < maxIndex := by
  have hlength : (c.length : Int) < maxPosition := hs.length_lt
  simp only [maxPosition] at hlength
  simp only [maxIndex]
  omega

/-- A block is cut at the machine's bound or at the sum itself; the sequence ends
before either makes a difference. -/
theorem slice_addSaturating (hs : Addressable c.sequence) (start count : Nat) :
    Sequence.slice c.sequence start (Index.addSaturating start count) =
      Sequence.slice c.sequence start (start + count) := by
  have hlength : (toList c.sequence).length < maxIndex := by
    rw [← length_eq]
    exact length_lt_maxIndex hs
  rw [LawfulSequence.slice_eq, LawfulSequence.slice_eq, Index.addSaturating]
  rcases Nat.le_total (start + count) maxIndex with hsum | hsum
  · rw [Nat.min_eq_left hsum]
  · rw [Nat.min_eq_right hsum, List.take_of_length_le (by omega),
      List.take_of_length_le (by omega)]

theorem take_locate (hc : c.Admissible) (count : Nat) :
    c.locate.take count = (do
      let taken ← Sequence.slice c.sequence c.position.toNat (c.position.toNat + count)
      return ⟨taken, (c.moveTo (min (c.position.toNat + count) c.length : Nat)).locate,
        if c.length < c.position.toNat + count then
          [.clampedTake count c.position.toNat c.length]
        else
          []⟩) := by
  have hlength := length_lt_maxIndex hc.addressable
  have hstop : min (Index.addSaturating c.position.toNat count) c.length =
      min (c.position.toNat + count) c.length := by
    simp only [Index.addSaturating]
    omega
  have hclamped : c.length < Index.addSaturating c.position.toNat count ↔
      c.length < c.position.toNat + count := by
    simp only [Index.addSaturating]
    omega
  have hmove : c.locate.moveTo (min (c.position.toNat + count) c.length : Nat) =
      .ok (c.moveTo (min (c.position.toNat + count) c.length : Nat)).locate := by
    have hmoved := hc.moveTo_index (Nat.min_le_right (c.position.toNat + count) c.length)
    exact moveTo_locate hc hmoved.beforeFirst_le hmoved.position_le
  rw [Cursor.take]
  change (Position.toIndex (max c.position 0) >>= _) = _
  rw [Position.toIndex_max_zero]
  change (c.locate.moveTo (min (Index.addSaturating c.position.toNat count) c.length : Nat)
    >>= fun moved => Sequence.slice c.sequence c.position.toNat
        (Index.addSaturating c.position.toNat count) >>= fun taken =>
      Except.ok (Reply.mk taken moved
        (if c.length < Index.addSaturating c.position.toNat count then
          [.clampedTake count c.position.toNat c.length]
        else
          []))) = _
  rw [hstop, hmove, slice_addSaturating hc.addressable]
  simp only [hclamped]
  rfl

end SeqCursor.PlainCursor
