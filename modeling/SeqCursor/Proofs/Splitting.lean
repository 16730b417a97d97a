import SeqCursor.Proofs.FirstOccurrence
import SeqCursor.Proofs.Loop
import SeqCursor.Proofs.Passage

/-!
# Splitting

A client splits what is left at a value by reading up to it again and again, as long as
something lies ahead.  Each piece ends before the first element that equals the value,
which is read too and belongs to no piece.  The pieces and the elements that ended them,
one after the other, are what was left.
-/

namespace SeqCursor

open Sequence

/-- What one turn of a split reads: the elements before the one that stopped it, and that
one, if there was one. -/
structure Piece (S α : Type) where
  part : S
  stopper? : Option α
  deriving DecidableEq, Repr

variable {σ S α : Type} [Sequence S α]

/-- All elements that were read for a piece. -/
def Piece.elements (piece : Piece S α) : List α :=
  toList piece.part ++ piece.stopper?.toList

/-- The pieces are the elements, cut at every one that stops, with a last piece for those
behind the last cut, if there are any. -/
structure Splits (stops : α → Bool) (elements : List α) (pieces : List (Piece S α)) : Prop where
  whole : pieces.flatMap Piece.elements = elements
  passed : ∀ piece ∈ pieces, ∀ element ∈ toList piece.part, stops element = false
  stopped : ∀ piece ∈ pieces, ∀ element ∈ piece.stopper?, stops element = true
  length_eq : pieces.length =
    elements.countP stops + if elements.getLast?.any (!stops ·) then 1 else 0

/-! ## Lists, up to the first element that stops -/

section

variable {stops : α → Bool} {elements : List α}

theorem take_append_stopper_append_drop (stops : α → Bool) (elements : List α) :
    elements.take (elements.findIdx stops) ++ elements[elements.findIdx stops]?.toList ++
      elements.drop (elements.findIdx stops + 1) = elements := by
  have hlength : (elements.take (elements.findIdx stops)).length = elements.findIdx stops :=
    List.length_take_of_le List.findIdx_le_length
  have hwhole := takeWhile_append_find?_append_drop stops elements
  rwa [takeWhile_not_eq_take_findIdx, List.find?_eq_getElem?_findIdx, hlength] at hwhole

theorem not_stops_of_mem_take {element : α}
    (helement : element ∈ elements.take (elements.findIdx stops)) : stops element = false := by
  rw [← takeWhile_not_eq_take_findIdx] at helement
  simpa using List.all_eq_true.mp List.all_takeWhile element helement

theorem stops_of_mem_getElem? {element : α}
    (helement : element ∈ elements[elements.findIdx stops]?) : stops element = true := by
  rw [← List.find?_eq_getElem?_findIdx] at helement
  exact List.find?_some helement

/-- The elements that stop are the first one, if there is one, and those behind it. -/
theorem countP_eq_countP_drop (stops : α → Bool) (elements : List α) :
    elements.countP stops = (elements.drop (elements.findIdx stops + 1)).countP stops +
      if elements.findIdx stops < elements.length then 1 else 0 := by
  have hpassed : (elements.take (elements.findIdx stops)).countP stops = 0 :=
    List.countP_eq_zero.mpr fun element helement =>
      Bool.not_eq_true _ ▸ not_stops_of_mem_take helement
  have hstopper : elements[elements.findIdx stops]?.toList.countP stops =
      if elements.findIdx stops < elements.length then 1 else 0 := by
    by_cases hfound : elements.findIdx stops < elements.length
    · obtain ⟨element, helement, hstops⟩ := (Option.any_eq_true _ _).mp (any_findIdx hfound)
      rw [if_pos hfound, helement, Option.toList_some, List.countP_singleton, if_pos hstops]
    · rw [if_neg hfound, List.getElem?_eq_none (Nat.le_of_not_lt hfound)]
      rfl
  calc
    elements.countP stops
        = (elements.take (elements.findIdx stops) ++
            elements[elements.findIdx stops]?.toList ++
            elements.drop (elements.findIdx stops + 1)).countP stops := by
          rw [take_append_stopper_append_drop]
    _ = 0 + (if elements.findIdx stops < elements.length then 1 else 0) +
          (elements.drop (elements.findIdx stops + 1)).countP stops := by
          rw [List.countP_append, List.countP_append, hpassed, hstopper]
    _ = _ := by rw [Nat.zero_add, Nat.add_comm]

/-- Where nothing lies behind the first element that stops, the last element is that one,
or it does not stop. -/
theorem stops_getLast_iff {final : α} (hfinal : elements.getLast? = some final)
    (hdone : elements.length ≤ elements.findIdx stops + 1) :
    stops final = true ↔ elements.findIdx stops < elements.length := by
  constructor
  · intro hstops
    exact List.findIdx_lt_length_of_exists ⟨final, List.mem_of_getLast? hfinal, hstops⟩
  · intro hfound
    have hindex : elements.length - 1 = elements.findIdx stops := by omega
    rw [List.getLast?_eq_getElem?, hindex] at hfinal
    exact stops_of_mem_getElem? hfinal

end

namespace Splits

variable {stops : α → Bool} {elements : List α} {pieces : List (Piece S α)}

theorem nil (stops : α → Bool) : Splits stops [] ([] : List (Piece S α)) :=
  ⟨rfl, List.forall_mem_nil _, List.forall_mem_nil _, rfl⟩

variable [LawfulSequence S α]

/-- A first piece before the pieces of what lies behind it. -/
theorem cons (hsome : elements ≠ [])
    (hbehind : Splits stops (elements.drop (elements.findIdx stops + 1)) pieces) :
    Splits stops elements (⟨ofList (elements.take (elements.findIdx stops)),
      elements[elements.findIdx stops]?⟩ :: pieces) := by
  have hpart : toList (ofList (elements.take (elements.findIdx stops)) : S) =
      elements.take (elements.findIdx stops) := LawfulSequence.toList_ofList _
  constructor
  · rw [List.flatMap_cons, hbehind.whole, Piece.elements, hpart]
    exact take_append_stopper_append_drop stops elements
  · rw [List.forall_mem_cons, hpart]
    exact ⟨fun _ helement => not_stops_of_mem_take helement, hbehind.passed⟩
  · rw [List.forall_mem_cons]
    exact ⟨fun _ helement => stops_of_mem_getElem? helement, hbehind.stopped⟩
  · obtain ⟨final, hfinal⟩ := Option.ne_none_iff_exists'.mp (mt List.getLast?_eq_none_iff.mp hsome)
    rw [List.length_cons, hbehind.length_eq, countP_eq_countP_drop stops elements,
      List.getLast?_drop, hfinal]
    by_cases hdone : elements.length ≤ elements.findIdx stops + 1
    · have hlast := stops_getLast_iff hfinal hdone
      rw [if_pos hdone]
      by_cases hfound : elements.findIdx stops < elements.length
      · simp [hfound, hlast.mpr hfound]
      · simp [hfound, Bool.eq_false_iff.mpr (mt hlast.mp hfound)]
    · have hfound : elements.findIdx stops < elements.length := by omega
      rw [if_neg hdone, if_pos hfound]
      exact Nat.add_right_comm _ _ _

end Splits

namespace PlainCursor

variable {c : PlainCursor S}

theorem rest_moveTo_index (c : PlainCursor S) (index : Nat) :
    (c.moveTo ((c.position + 1).toNat + index : Nat)).rest = c.rest.drop (index + 1) := by
  change (toList c.sequence).drop (((c.position + 1).toNat + index : Nat) + 1 : Int).toNat = _
  rw [rest, List.drop_drop]
  rfl

theorem rest_seekEnd [LawfulSequence S α] (c : PlainCursor S) : (c.moveTo c.length).rest = [] := by
  change (toList c.sequence).drop (c.length + 1) = []
  apply List.drop_eq_nil_of_le
  rw [← length_eq]
  exact Nat.le_succ _

end PlainCursor

namespace Cursor

/-- The loop that takes turns as long as something lies ahead. -/
def whilePeek (turn : σ → Cursor S → Except Fault (Turn σ S)) : Loop σ S where
  goesOn c := do
    let ahead ← c.peek
    return ahead.isSome
  turn := turn

/-- The turn of a split: the elements up to the next one that equals the value, and what
the cursor shows there. -/
def splitTurn [BEq α] (value : α) (pieces : List (Piece S α)) (c : Cursor S) :
    Except Fault (Turn (List (Piece S α)) S) := do
  let read ← c.upTo value
  return .again (pieces ++ [⟨read.answer, read.cursor.current⟩]) read.cursor

variable {c : Cursor S} [LawfulSequence S α]

theorem Sound.goesOn_whilePeek (hc : c.Sound) (turn : σ → Cursor S → Except Fault (Turn σ S)) :
    (whilePeek turn).goesOn c = .ok c.plain.rest.head?.isSome := by
  change (c.peek >>= _) = _
  rw [hc.peek_eq, ← PlainCursor.head?_rest hc.admissible]
  rfl

variable [BEq α]

omit [LawfulSequence S α] in
theorem splitTurn_of_upTo {value : α} (pieces : List (Piece S α)) {read : Reply (Cursor S) S}
    (hread : c.upTo value = .ok read) :
    splitTurn value pieces c =
      .ok (.again (pieces ++ [⟨read.answer, read.cursor.current⟩]) read.cursor) := by
  rw [splitTurn, hread]
  rfl

/-- Reading up to a value takes the elements before the first one that equals it, and that
one, off the rest.  Where nothing is left then, the cursor is on the last element if it was
that one, and behind it if there was none. -/
theorem Sound.exists_upTo (hc : c.Sound) (value : α) :
    ∃ after, c.upTo value =
        .ok ⟨ofList (c.plain.rest.take (c.plain.rest.findIdx (· == value))), after, []⟩ ∧
      after.Sound ∧ after.contents = c.contents ∧
      after.current = c.plain.rest[c.plain.rest.findIdx (· == value)]? ∧
      after.plain.rest = c.plain.rest.drop (c.plain.rest.findIdx (· == value) + 1) ∧
      (c.plain.rest.length ≤ c.plain.rest.findIdx (· == value) + 1 →
        ∀ final, c.plain.rest.getLast? = some final →
          after.position = if final == value then (c.length : Int) - 1 else c.length) := by
  have hplace := hc.admissible
  have hlength : c.length = c.plain.length := hc.coherent.length_eq
  rcases findIdx_lt_or_eq_length (· == value) c.plain.rest with hfound | hall
  · have hadmissible := PlainCursor.admissible_index hplace hfound
    refine ⟨_, hc.upTo_of_lt hfound, PlainCursor.sound_locate hadmissible, rfl, ?_, ?_, ?_⟩
    · rw [PlainCursor.current_moveTo_index, PlainCursor.get?_behind]
    · exact PlainCursor.rest_moveTo_index c.plain _
    · intro hdone final hfinal
      have hrest := PlainCursor.length_rest c.plain
      rw [if_pos ((stops_getLast_iff hfinal hdone).mpr hfound)]
      change ((_ : Nat) : Int) = _
      omega
  · have hupTo := hc.upTo_of_eq hall
    have hnone := Nat.not_lt_of_ge (Nat.le_of_eq hall.symm)
    refine ⟨_, ?_, PlainCursor.sound_locate hplace.seekEnd, rfl, ?_, ?_, ?_⟩
    · rw [hall, List.take_length]
      exact hupTo
    · rw [PlainCursor.current_moveTo_index, LawfulSequence.get?_eq,
        List.getElem?_eq_none (Nat.le_of_eq c.plain.length_eq.symm),
        List.getElem?_eq_none (Nat.le_of_not_lt hnone)]
    · rw [hall, List.drop_eq_nil_of_le (Nat.le_succ _)]
      exact PlainCursor.rest_seekEnd c.plain
    · intro hdone final hfinal
      rw [if_neg (mt (stops_getLast_iff hfinal hdone).mp hnone), hlength]
      rfl

/-- Where the split of what is left leads a cursor. -/
structure SplitEnd (value : α) (elements : List α) (c last : Cursor S) : Prop where
  contents_eq : last.contents = c.contents
  eq_of_nil : elements = [] → last = c
  position_eq : ∀ final, elements.getLast? = some final →
    last.position = if final == value then (c.length : Int) - 1 else c.length

omit [LawfulSequence S α] [Sequence S α] in
theorem SplitEnd.nil (value : α) (c : Cursor S) : SplitEnd value [] c c :=
  ⟨rfl, fun _ => rfl, fun _ hfinal => nomatch hfinal⟩

omit [LawfulSequence S α] [Sequence S α] in
/-- Where nothing is left behind the first element that equals the value, the first turn
leads to the end of the split; otherwise the turns after it do. -/
theorem SplitEnd.cons {value : α} {elements : List α} {after last : Cursor S}
    (hsome : elements ≠ []) (hcontents : after.contents = c.contents)
    (hlength : after.length = c.length)
    (hposition : elements.length ≤ elements.findIdx (· == value) + 1 →
      ∀ final, elements.getLast? = some final →
        after.position = if final == value then (c.length : Int) - 1 else c.length)
    (hbehind : SplitEnd value (elements.drop (elements.findIdx (· == value) + 1)) after last) :
    SplitEnd value elements c last := by
  refine ⟨hbehind.contents_eq.trans hcontents, fun hnone => absurd hnone hsome, ?_⟩
  intro final hfinal
  by_cases hdone : elements.length ≤ elements.findIdx (· == value) + 1
  · rw [hbehind.eq_of_nil (List.drop_eq_nil_iff.mpr hdone)]
    exact hposition hdone final hfinal
  · rw [← hlength]
    apply hbehind.position_eq
    rw [List.getLast?_drop, if_neg hdone, hfinal]

/-- A split comes to its end, with a piece for every turn. -/
theorem Sound.exists_split (hc : c.Sound) (value : α) (before : List (Piece S α)) :
    ∃ pieces last, Splits (· == value) c.plain.rest pieces ∧
      (∀ limit, pieces.length ≤ limit →
        (whilePeek (splitTurn value)).runWithin limit before c =
          .ok (some (before ++ pieces, last))) ∧
      SplitEnd value c.plain.rest c last := by
  -- Every turn takes at least one element off what is left.
  induction hleft : c.plain.rest.length using Nat.strongRecOn generalizing c before with
  | _ left ih =>
    have hguard := hc.goesOn_whilePeek (splitTurn value)
    by_cases hnone : c.plain.rest = []
    · rw [hnone] at hguard ⊢
      refine ⟨[], c, .nil _, ?_, .nil value c⟩
      intro limit _
      rw [List.append_nil]
      exact Loop.runWithin_of_not_goesOn hguard
    · obtain ⟨after, hread, hsound, hcontents, hcurrent, hrest, hposition⟩ :=
        hc.exists_upTo value
      have hlength : after.length = c.length := by
        rw [hsound.coherent.length_eq, hc.coherent.length_eq]
        exact congrArg Sequence.length hcontents
      have hturn := splitTurn_of_upTo before hread
      have hless : after.plain.rest.length < left := by
        have hsome := List.length_pos_iff.mpr hnone
        rw [hrest, List.length_drop]
        omega
      obtain ⟨pieces, last, hsplits, hrun, hend⟩ := ih _ hless hsound _ rfl
      rw [hcurrent] at hturn
      rw [hrest] at hsplits hend
      rw [List.isSome_head?.mpr hnone] at hguard
      rw [List.append_assoc] at hrun
      exact ⟨_ :: pieces, last, .cons hnone hsplits,
        Loop.runWithin_of_again_of_le hguard hturn hrun,
        .cons hnone hcontents hlength hposition hend⟩

example : (whilePeek (splitTurn 0)).runWithin 3 [] (on #[0, 7, 0]) =
    .ok (some ([⟨#[], some 0⟩, ⟨#[7], some 0⟩], ⟨#[0, 7, 0], 2, 3, 3⟩)) := by
  cbv

/-- Splitting what is left at a value loses nothing: the loop ends with a piece for every
turn, and the pieces are what was left, cut at every element that equals the value.  Where
the last element is such a one, the cursor stays on it; otherwise it is at its end, and
where nothing was left it has not moved. -/
theorem splitting_loses_nothing (hc : c.Reachable) (value : α) :
    ∃ rest pieces last, c.remaining = .ok rest ∧
      (∀ limit, pieces.length ≤ limit →
        (whilePeek (splitTurn value)).runWithin limit [] c = .ok (some (pieces, last))) ∧
      Splits (· == value) (toList rest) pieces ∧
      last.contents = c.contents ∧
      (toList rest = [] → last = c) ∧
      ∀ final, (toList rest).getLast? = some final →
        last.position = if final == value then (c.length : Int) - 1 else c.length := by
  obtain ⟨pieces, last, hsplits, hrun, hend⟩ := hc.sound.exists_split value []
  refine ⟨_, pieces, last, hc.sound.remaining_eq, hrun, ?_⟩
  rw [LawfulSequence.toList_ofList]
  exact ⟨hsplits, hend.contents_eq, hend.eq_of_nil, hend.position_eq⟩

/-- A separator first, two of them side by side, and characters of one to four bytes that
no separator ends. -/
theorem splitting_loses_nothing_mixed_widths :
    (on ",é,,🦀b").Reachable ∧
    ∃ pieces last, (whilePeek (splitTurn ',')).runWithin 4 [] (on ",é,,🦀b") =
        .ok (some (pieces, last)) ∧
      Splits (· == ',') [',', 'é', ',', ',', '🦀', 'b'] pieces ∧ pieces.length = 4 ∧
      last.position = 6 := by
  have hreachable : (on ",é,,🦀b").Reachable :=
    reachable_on (Text.addressable (by decide) (by decide))
  obtain ⟨rest, pieces, last, hrest, hrun, hsplits, -, -, hend⟩ :=
    splitting_loses_nothing hreachable ','
  have hwhole : (on ",é,,🦀b").remaining = .ok ",é,,🦀b" := rfl
  obtain rfl := Except.ok.inj (hwhole.symm.trans hrest)
  have hcount : pieces.length = 4 := hsplits.length_eq
  exact ⟨hreachable, pieces, last, hrun 4 (Nat.le_of_eq hcount), hsplits, hcount, hend 'b' rfl⟩

end Cursor

end SeqCursor
