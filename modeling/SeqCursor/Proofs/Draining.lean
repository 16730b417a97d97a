import SeqCursor.Proofs.FirstOccurrence
import SeqCursor.Proofs.Passage
import SeqCursor.Proofs.SingleReads

/-!
# Reading all that is left

What is left of a sequence can be looked at, visited element by element, or read: at once,
up to a value that does not occur, or by one read after the other until one fails.  Looking
cuts a slice, whose ends are resolved from the start of the sequence; reading follows the
cached offset.  Both come across the same elements.

They end at different places.  A step from the last element is made although it finds
nothing, a demand there is not.  So steps lead to the end, and demands to the last element.
-/

namespace SeqCursor

open Sequence

variable {S α β : Type} [Sequence S α]

/-- One read after the other finds `elements`, and `last` is the first one to find nothing. -/
inductive Cursor.Drains (read : Cursor S → Except Fault (Reply (Cursor S) β))
    (found : β → Option α) : Cursor S → List α → Reply (Cursor S) β → Prop where
  | done {c : Cursor S} {last : Reply (Cursor S) β} :
      read c = .ok last → found last.answer = none → Drains read found c [] last
  | more {c : Cursor S} {element : α} {elements : List α} {reply last : Reply (Cursor S) β} :
      read c = .ok reply → found reply.answer = some element →
      Drains read found reply.cursor elements last → Drains read found c (element :: elements) last

/-- `rest` is what a cursor has not read, in whichever way it is read.  Reading it leads to
`last` and, where failed reads do not move, to `final`. -/
structure Cursor.ReadsRest [BEq α] (c : Cursor S) (rest : S) (last final : Cursor S) : Prop where
  elements : toList rest = (toList c.contents).drop (c.position + 1).toNat
  remaining : c.perform .remaining = .ok ⟨.part rest, c, []⟩
  visited : c.perform .visitRemaining = .ok ⟨.visited (toList rest), c, []⟩
  folded : ∀ {β : Type} (visit : β → α → β) (start : β),
    c.foldRemaining visit start = .ok ((toList rest).foldl visit start)
  upToEnd : c.upToEnd = .ok ⟨rest, last, []⟩
  upTo : ∀ value, (∀ element ∈ toList rest, (element == value) = false) →
    c.upTo value = .ok ⟨rest, last, []⟩
  drained_by_next : c.Drains next id (toList rest) ⟨none, last, []⟩
  drained_by_demand : c.Drains demand Except.toOption (toList rest)
    ⟨.error (.endOfStream (max c.position (c.length - 1))), final, []⟩
  contents_last : last.contents = c.contents
  position_last : last.position = c.length
  contents_final : final.contents = c.contents
  position_final : final.position = max c.position (c.length - 1)
  next_forever : ∀ count, last.run (List.replicate count .next) =
    .ok ⟨List.replicate count ⟨.element none, [], last.position, true⟩, last, []⟩

namespace PlainCursor

variable {c : PlainCursor S}

/-- The first place from a cursor on with nothing ahead. -/
def exhausted (c : PlainCursor S) : PlainCursor S :=
  c.moveTo (max c.position (c.length - 1))

theorem admissible_exhausted (hc : c.Admissible) : c.exhausted.Admissible := by
  have hlow := hc.beforeFirst_le
  have hhigh := hc.position_le
  apply hc.moveTo <;> omega

theorem advance_exhausted (hc : c.Admissible) : c.exhausted.advance = c.moveTo c.length := by
  have hhigh := hc.position_le
  have hlast : min (max c.position (c.length - 1) + 1) (c.length : Int) = c.length := by omega
  rw [advance_eq_moveTo (admissible_exhausted hc)]
  change c.moveTo (min (max c.position (c.length - 1) + 1) c.length) = _
  rw [hlast]

variable [LawfulSequence S α]

theorem peek_exhausted (hc : c.Admissible) : c.exhausted.peek = none :=
  (peek_eq_none_iff_position (admissible_exhausted hc)).mpr (Int.le_max_right _ _)

theorem exhausted_of_peek_eq_none (hc : c.Admissible) (hpeek : c.peek = none) :
    c.exhausted = c := by
  rw [exhausted, Int.max_eq_left ((peek_eq_none_iff_position hc).mp hpeek)]
  rfl

theorem exhausted_advance (hc : c.Admissible) {element : α} (hpeek : c.peek = some element) :
    c.advance.exhausted = c.exhausted := by
  have hahead : ¬ (c.length : Int) - 1 ≤ c.position := by
    rw [← peek_eq_none_iff_position hc, hpeek]
    exact Option.some_ne_none element
  have hplace : max (min (c.position + 1) c.length) ((c.length : Int) - 1) =
      max c.position (c.length - 1) := by
    omega
  rw [advance_eq_moveTo hc]
  change c.moveTo (max (min (c.position + 1) c.length) ((c.length : Int) - 1)) = _
  rw [hplace]
  rfl

/-- Reads that step onto the element ahead, as long as there is one, find all that is left,
and the first one in vain is made at the first place with nothing ahead. -/
theorem drains_locate (hc : c.Admissible)
    {read : Cursor S → Except Fault (Reply (Cursor S) β)} (found : β → Option α)
    (hread : ∀ d : PlainCursor S, d.Admissible → ∀ element, d.peek = some element →
      ∃ answer, read d.locate = .ok ⟨answer, d.advance.locate, []⟩ ∧ found answer = some element)
    {last : Reply (Cursor S) β} (hlast : read c.exhausted.locate = .ok last)
    (hnone : found last.answer = none) : c.locate.Drains read found c.rest last := by
  -- Every cursor on the way has the same exhausted place, so `hlast` goes along.
  induction hrest : c.rest generalizing c with
  | nil =>
      have hpeek : c.peek = none := by rw [← head?_rest hc, hrest, List.head?_nil]
      rw [exhausted_of_peek_eq_none hc hpeek] at hlast
      exact .done hlast hnone
  | cons element elements ih =>
      have hpeek : c.peek = some element := by rw [← head?_rest hc, hrest, List.head?_cons]
      have hbehind : c.advance.rest = elements := by
        have hwhole := rest_advance hc
        rw [hrest, hpeek] at hwhole
        exact (List.cons.inj hwhole).2.symm
      obtain ⟨answer, hanswer, hfound⟩ := hread c hc element hpeek
      rw [← exhausted_advance hc hpeek] at hlast
      exact .more hanswer hfound (ih hc.advance hlast hbehind)

end PlainCursor

namespace Cursor

variable {c : Cursor S}

theorem next_of_atEnd (hend : c.atEnd = true) : c.next = .ok ⟨none, c, []⟩ :=
  if_pos hend

/-- At the end steps find nothing and stay, however many they are. -/
theorem run_next_of_atEnd [BEq α] (hend : c.atEnd = true) (count : Nat) :
    c.run (List.replicate count .next) =
      .ok ⟨List.replicate count ⟨.element none, [], c.position, true⟩, c, []⟩ := by
  induction count with
  | zero => rfl
  | succ count ih =>
      have hstep : c.perform .next = .ok ⟨.element none, c, []⟩ := by
        rw [perform, next_of_atEnd hend]
        rfl
      rw [List.replicate_succ, run_cons hstep ih, observe, hend]
      rfl

variable [LawfulSequence S α]

namespace Sound

theorem foldRemaining_eq (hc : c.Sound) (visit : β → α → β) (start : β) :
    c.foldRemaining visit start = .ok (c.plain.rest.foldl visit start) := by
  have hfold := PlainCursor.foldRemaining_locate hc.admissible visit start
  rwa [hc.locate_plain] at hfold

theorem upToEnd_eq (hc : c.Sound) :
    c.upToEnd = .ok ⟨ofList c.plain.rest, (c.plain.moveTo c.plain.length).locate, []⟩ := by
  have hupToEnd := PlainCursor.upToEnd_locate hc.admissible
  have hall : c.plain.rest.findIdx (fun _ => false) = c.plain.rest.length :=
    List.findIdx_eq_length.mpr fun _ _ => rfl
  rwa [hc.locate_plain, PlainCursor.scan_of_eq hc.admissible hall] at hupToEnd

theorem drains_next (hc : c.Sound) :
    c.Drains next id c.plain.rest ⟨none, (c.plain.moveTo c.plain.length).locate, []⟩ := by
  have hlast := PlainCursor.next_locate (PlainCursor.admissible_exhausted hc.admissible)
  rw [PlainCursor.peek_exhausted hc.admissible,
    PlainCursor.advance_exhausted hc.admissible] at hlast
  have hdrains := PlainCursor.drains_locate hc.admissible id ?_ hlast rfl
  · rwa [hc.locate_plain] at hdrains
  · intro d hd element hpeek
    exact ⟨d.peek, PlainCursor.next_locate hd, hpeek⟩

theorem drains_demand (hc : c.Sound) :
    c.Drains demand Except.toOption c.plain.rest
      ⟨.error (.endOfStream c.plain.exhausted.position), c.plain.exhausted.locate, []⟩ := by
  have hlast := PlainCursor.demand_locate (PlainCursor.admissible_exhausted hc.admissible)
  rw [PlainCursor.peek_exhausted hc.admissible] at hlast
  have hdrains := PlainCursor.drains_locate hc.admissible Except.toOption ?_ hlast rfl
  · rwa [hc.locate_plain] at hdrains
  · intro d hd element hpeek
    have hdemand := PlainCursor.demand_locate hd
    rw [hpeek] at hdemand
    exact ⟨.ok element, hdemand, rfl⟩

end Sound

variable [BEq α]

/-- All ways to read what a reachable cursor has not read come across the same elements, those
of its sequence behind its position.  Looking and visiting leave the cursor as it is.  Reading
at once, step by step and up to a value that does not occur leads to the end, where further
steps find nothing and stay; demands lead to the last element, unless the cursor was at the
end, and name that place when they fail. -/
theorem ways_to_read_rest_agree (hc : c.Reachable) :
    ∃ rest last final, c.ReadsRest rest last final := by
  have hsound := hc.sound
  have hplace := hsound.admissible
  have hlength : (c.plain.length : Int) = c.length :=
    congrArg Nat.cast hsound.coherent.length_eq.symm
  have hrest : toList (ofList c.plain.rest : S) = c.plain.rest := LawfulSequence.toList_ofList _
  have hexhausted : c.plain.exhausted.position = max c.position (c.length - 1) := by
    rw [← hlength]
    rfl
  refine ⟨ofList c.plain.rest, (c.plain.moveTo c.plain.length).locate, c.plain.exhausted.locate, ?_⟩
  constructor
  · exact hrest
  · rw [perform, hsound.remaining_eq]
    rfl
  · have hvisited : (c.plain.rest.foldl Array.push #[]).toList = c.plain.rest := by simp
    rw [perform, hsound.foldRemaining_eq, hrest]
    change Except.ok (Reply.mk (Answer.visited (c.plain.rest.foldl Array.push #[]).toList) c []) = _
    rw [hvisited]
  · intro β visit start
    rw [hsound.foldRemaining_eq, hrest]
  · exact hsound.upToEnd_eq
  · intro value hnone
    rw [hrest] at hnone
    exact hsound.upTo_of_eq (List.findIdx_eq_length.mpr hnone)
  · rw [hrest]
    exact hsound.drains_next
  · rw [hrest, ← hexhausted]
    exact hsound.drains_demand
  · rfl
  · exact hlength
  · rfl
  · exact hexhausted
  · exact run_next_of_atEnd (PlainCursor.atEnd_seekEnd hplace)

/-- From before a character of four bytes, and on an empty array, where the place before the
first element is already the last one from which nothing is demanded. -/
theorem ways_to_read_rest_agree_mixed_widths :
    (Cursor.mk "aé🦀b" 1 4 3).Reachable ∧
    (∃ rest last final, (Cursor.mk "aé🦀b" 1 4 3).ReadsRest rest last final ∧
      toList rest = ['🦀', 'b'] ∧
      (Cursor.mk "aé🦀b" 1 4 3).upTo 'a' = .ok ⟨rest, last, []⟩ ∧
      last.position = 4 ∧ final.position = 3) ∧
    (on (#[] : Array Nat)).Reachable ∧
    ∃ rest last final, (on (#[] : Array Nat)).ReadsRest rest last final ∧
      toList rest = [] ∧ last.position = 0 ∧ final.position = -1 := by
  have htext : (Cursor.mk "aé🦀b" 1 4 3).Reachable :=
    reachable_mixed_widths (by decide +kernel)
  have hempty : (on (#[] : Array Nat)).Reachable := reachable_on (Indexed.addressable (by decide))
  obtain ⟨rest, last, final, hreads⟩ := ways_to_read_rest_agree htext
  obtain ⟨nothing, behind, before, hnothing⟩ := ways_to_read_rest_agree hempty
  have helements : toList rest = ['🦀', 'b'] := hreads.elements
  have habsent : ∀ element ∈ toList rest, (element == 'a') = false := by
    simp [helements]
  exact ⟨htext, ⟨rest, last, final, hreads, helements, hreads.upTo 'a' habsent,
      hreads.position_last, hreads.position_final⟩,
    hempty, nothing, behind, before, hnothing, hnothing.elements, hnothing.position_last,
    hnothing.position_final⟩

end Cursor

end SeqCursor
