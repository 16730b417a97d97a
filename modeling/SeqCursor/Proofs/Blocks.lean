import Mathlib.Algebra.GroupWithZero.Nat
import SeqCursor.Proofs.Termination

/-!
# Blocks

Blocks are taken from the position on, or from the first element where nothing has been
read.  A block moves the cursor behind its elements, so that the next one starts where it
stops: blocks one after the other hold what a single block of all their elements holds,
and leave the same cursor, whichever of them is empty or runs past the end.

A single read answers the element behind the position.  So the first read after a block
leaves out the element that stopped the block, and the first block after a read answers
the element just read once more.
-/

namespace SeqCursor

open Sequence

variable {S α : Type} [Sequence S α]

/-- The blocks are the elements, cut after every `count` of them.  Where there are no
elements, there is one block without any. -/
structure Tiles (count : Nat) (elements : List α) (blocks : List S) : Prop where
  whole : blocks.flatMap toList = elements
  length_eq : blocks.length = max 1 ((elements.length + count - 1) / count)
  full : ∀ block ∈ blocks.dropLast, length block = count

/-- Takes a block for each count, one after the other. -/
def Cursor.takeEach (c : Cursor S) : List Nat → Except Fault (Reply (Cursor S) (List S))
  | [] => .ok ⟨[], c, []⟩
  | count :: counts => do
      let taken ← c.take count
      let later ← taken.cursor.takeEach counts
      return ⟨taken.answer :: later.answer, later.cursor, taken.notices ++ later.notices⟩

theorem Cursor.takeEach_cons {c : Cursor S} {count : Nat} {counts : List Nat}
    {taken : Reply (Cursor S) S} {later : Reply (Cursor S) (List S)}
    (htaken : c.take count = .ok taken) (hlater : taken.cursor.takeEach counts = .ok later) :
    c.takeEach (count :: counts) =
      .ok ⟨taken.answer :: later.answer, later.cursor, taken.notices ++ later.notices⟩ := by
  rw [takeEach, htaken]
  change (taken.cursor.takeEach counts >>= _) = _
  rw [hlater]
  rfl

variable [LawfulSequence S α]

namespace Tiles

variable {count : Nat} {elements : List α} {blocks : List S}

omit [LawfulSequence S α] in
theorem ne_nil (htiles : Tiles count elements blocks) : blocks ≠ [] := by
  intro hnone
  have hlength := htiles.length_eq
  rw [hnone, List.length_nil] at hlength
  omega

theorem singleton (hcount : 1 ≤ count) (hfits : elements.length ≤ count) :
    Tiles count elements [(ofList (elements.take count) : S)] := by
  constructor
  · rw [List.flatMap_singleton, LawfulSequence.toList_ofList, List.take_of_length_le hfits]
  · have hless : (elements.length + count - 1) / count < 2 := by
      rw [Nat.div_lt_iff_lt_mul hcount]
      omega
    rw [List.length_singleton]
    omega
  · exact List.forall_mem_nil _

/-- A first block before the blocks of what lies behind it. -/
theorem cons (hcount : 1 ≤ count) (hmore : count < elements.length)
    (hbehind : Tiles count (elements.drop count) blocks) :
    Tiles count elements ((ofList (elements.take count) : S) :: blocks) := by
  constructor
  · rw [List.flatMap_cons, LawfulSequence.toList_ofList, hbehind.whole, List.take_append_drop]
  · have hsum : elements.length + count - 1 = (elements.drop count).length + count - 1 + count := by
      rw [List.length_drop]
      omega
    have hsome : 1 ≤ ((elements.drop count).length + count - 1) / count := by
      rw [Nat.le_div_iff_mul_le hcount, List.length_drop]
      omega
    rw [List.length_cons, hbehind.length_eq, hsum, Nat.add_div_right _ hcount,
      Nat.max_eq_right hsome, Nat.max_eq_right (Nat.le_add_left 1 _)]
  · rw [List.dropLast_cons_of_ne_nil hbehind.ne_nil, List.forall_mem_cons]
    refine ⟨?_, hbehind.full⟩
    rw [length_ofList, List.length_take, Nat.min_eq_left (Nat.le_of_lt hmore)]

end Tiles

namespace PlainCursor

variable {c : PlainCursor S}

/-- The elements that blocks are taken from. -/
def untaken (c : PlainCursor S) : List α :=
  (toList c.sequence).drop c.position.toNat

/-- The place behind a block. -/
def behindBlock (c : PlainCursor S) (count : Nat) : PlainCursor S :=
  c.moveTo (min (c.position.toNat + count) c.length : Nat)

theorem length_untaken (c : PlainCursor S) : c.untaken.length = c.length - c.position.toNat := by
  rw [untaken, List.length_drop, length_eq]

omit [LawfulSequence S α] in
theorem admissible_behindBlock (hc : c.Admissible) (count : Nat) :
    (c.behindBlock count).Admissible :=
  hc.moveTo_index (Nat.min_le_right _ _)

omit [LawfulSequence S α] in
theorem behindBlock_behindBlock (c : PlainCursor S) (first second : Nat) :
    (c.behindBlock first).behindBlock second = c.behindBlock (first + second) := by
  have hplace : min (min (c.position.toNat + first) c.length + second) c.length =
      min (c.position.toNat + (first + second)) c.length := by
    omega
  change c.moveTo (min (min (c.position.toNat + first) c.length + second) c.length : Nat) = _
  rw [hplace]
  rfl

theorem drop_min_length (c : PlainCursor S) (index : Nat) :
    (toList c.sequence).drop (min index c.length) = (toList c.sequence).drop index := by
  rw [length_eq]
  rcases Nat.le_total index (toList c.sequence).length with hindex | hindex
  · rw [Nat.min_eq_left hindex]
  · rw [Nat.min_eq_right hindex, List.drop_length, List.drop_eq_nil_of_le hindex]

theorem untaken_behindBlock (c : PlainCursor S) (count : Nat) :
    (c.behindBlock count).untaken = c.untaken.drop count := by
  change (toList c.sequence).drop (min (c.position.toNat + count) c.length) = _
  rw [drop_min_length, untaken, List.drop_drop]

/-- What a block leaves does not hold the element that stopped it. -/
theorem rest_behindBlock (c : PlainCursor S) (count : Nat) :
    (c.behindBlock count).rest = c.untaken.drop (count + 1) := by
  calc
    (c.behindBlock count).rest
        = ((toList c.sequence).drop (min (c.position.toNat + count) c.length)).drop 1 := by
      rw [List.drop_drop]
      rfl
    _ = c.untaken.drop (count + 1) := by
      rw [drop_min_length, untaken, List.drop_drop, List.drop_drop, Nat.add_assoc]

theorem atEnd_behindBlock_iff (hc : c.Admissible) (count : Nat) :
    (c.behindBlock count).atEnd = true ↔ c.untaken.length ≤ count := by
  have hbound := hc.position_le
  rw [length_untaken]
  change decide ((c.length : Int) ≤ (min (c.position.toNat + count) c.length : Nat)) = true ↔ _
  rw [decide_eq_true_iff]
  omega

omit [LawfulSequence S α] in
/-- Before the first element blocks and reads start alike. -/
theorem untaken_of_beforeFirst (hfirst : c.position = Cursor.beforeFirst) :
    c.untaken = c.rest := by
  rw [untaken, rest, hfirst]
  rfl

/-- Behind a read a block starts with the element that was read. -/
theorem untaken_of_nonneg (hfirst : 0 ≤ c.position) :
    c.untaken = c.current.toList ++ c.rest := by
  rw [current_eq hfirst, rest, Int.toNat_add hfirst (by decide)]
  exact List.drop_eq_getElem?_toList_append

/-- A block behind a read holds the element that was read and leaves what as many reads
would leave. -/
theorem exists_take_untaken (hfirst : 0 ≤ c.position) (hlast : c.position < c.length)
    {count : Nat} (hcount : 1 ≤ count) :
    ∃ element, c.current = some element ∧
      c.untaken.take count = element :: c.rest.take (count - 1) ∧
      c.untaken.drop (count + 1) = c.rest.drop count := by
  have hindex : c.position.toNat < (toList c.sequence).length := by
    rw [← length_eq]
    omega
  have hcurrent : c.current = some (toList c.sequence)[c.position.toNat] := by
    rw [current_eq hfirst, List.getElem?_eq_getElem hindex]
  obtain ⟨fewer, rfl⟩ := Nat.exists_eq_add_of_le' hcount
  refine ⟨_, hcurrent, ?_, ?_⟩
  · rw [untaken_of_nonneg hfirst, hcurrent]
    rfl
  · rw [untaken_of_nonneg hfirst, hcurrent]
    rfl

/-- An empty block behind a read, and any block at the end, leaves everything as it is. -/
theorem behindBlock_eq_self (hc : c.Admissible) {count : Nat}
    (hstays : (0 ≤ c.position ∧ count = 0) ∨ c.position = c.length) :
    c.untaken.take count = [] ∧ c.behindBlock count = c := by
  have hbound := hc.position_le
  have hlength := c.length_untaken
  have hplace : ((min (c.position.toNat + count) c.length : Nat) : Int) = c.position := by
    omega
  constructor
  · rw [List.take_eq_nil_iff, ← List.length_eq_zero_iff]
    omega
  · rw [behindBlock, hplace]
    rfl

/-- The element that stopped a block. -/
theorem get?_behindBlock (c : PlainCursor S) (count : Nat) :
    get? c.sequence (min (c.position.toNat + count) c.length) = c.untaken[count]? := by
  rw [LawfulSequence.get?_eq, ← List.head?_drop, drop_min_length, List.head?_drop, untaken,
    List.getElem?_drop]

theorem peek_behindBlock (hc : c.Admissible) (count : Nat) :
    (c.behindBlock count).peek = c.untaken[count + 1]? := by
  rw [← head?_rest (admissible_behindBlock hc count), rest_behindBlock, List.head?_drop]

/-- The slice that a block is, with its stop held at the end. -/
theorem slice_untaken (c : PlainCursor S) (count : Nat) :
    Sequence.slice c.sequence c.position.toNat (min (c.position.toNat + count) c.length) =
      .ok (ofList (c.untaken.take count)) := by
  rw [LawfulSequence.slice_eq, length_eq, ← List.take_eq_take_min, List.drop_take,
    Nat.add_sub_cancel_left]
  rfl

/-- A count above the largest one that can be written down takes no more than that. -/
theorem take_untaken_min (hc : c.Admissible) (count : Nat) :
    c.untaken.take (min count maxIndex) = c.untaken.take count := by
  have hlength := length_lt_maxIndex hc.addressable
  have hbound := c.length_untaken
  rcases Nat.le_total count maxIndex with hcount | hcount
  · rw [Nat.min_eq_left hcount]
  · rw [Nat.min_eq_right hcount, List.take_of_length_le (by omega),
      List.take_of_length_le (by omega)]

omit [LawfulSequence S α] in
theorem behindBlock_min (hc : c.Admissible) (count : Nat) :
    c.behindBlock (min count maxIndex) = c.behindBlock count := by
  have hlength := length_lt_maxIndex hc.addressable
  have hplace : min (c.position.toNat + min count maxIndex) c.length =
      min (c.position.toNat + count) c.length := by
    omega
  rw [behindBlock, behindBlock, hplace]

end PlainCursor

namespace Cursor

variable {c : Cursor S}

namespace Sound

/-- A block holds the next elements and moves the cursor behind them. -/
theorem exists_take (hc : c.Sound) (count : Nat) :
    ∃ notices, c.take count = .ok ⟨ofList (c.plain.untaken.take count),
      (c.plain.behindBlock count).locate, notices⟩ := by
  have htake := PlainCursor.take_locate hc.admissible count
  rw [hc.locate_plain, slice_add] at htake
  exact ⟨_, htake⟩

omit [LawfulSequence S α] in
theorem behindBlock (hc : c.Sound) (count : Nat) : (c.plain.behindBlock count).locate.Sound :=
  PlainCursor.sound_locate (PlainCursor.admissible_behindBlock hc.admissible count)

/-- Blocks one after the other are a single block, cut where each of them starts. -/
theorem exists_takeEach (hc : c.Sound) (count : Nat) (counts : List Nat) :
    ∃ blocks, c.takeEach (count :: counts) = .ok blocks ∧
      blocks.answer.flatMap toList = c.plain.untaken.take (count :: counts).sum ∧
      blocks.cursor = (c.plain.behindBlock (count :: counts).sum).locate := by
  induction counts generalizing c count with
  | nil =>
      obtain ⟨notices, htake⟩ := hc.exists_take count
      refine ⟨_, takeEach_cons htake rfl, ?_, ?_⟩
      · rw [List.flatMap_singleton, LawfulSequence.toList_ofList, List.sum_singleton]
      · rw [List.sum_singleton]
  | cons next counts ih =>
      have hsum : (count :: next :: counts).sum = count + (next :: counts).sum := List.sum_cons
      obtain ⟨notices, htake⟩ := hc.exists_take count
      obtain ⟨later, hlater, hwhole, hlast⟩ := ih (hc.behindBlock count) next
      refine ⟨_, takeEach_cons htake hlater, ?_, ?_⟩
      · rw [List.flatMap_cons, LawfulSequence.toList_ofList, hwhole, hsum]
        change _ ++ (c.plain.behindBlock count).untaken.take _ = _
        rw [PlainCursor.untaken_behindBlock, ← List.take_add]
      · rw [hlast, hsum]
        change ((c.plain.behindBlock count).behindBlock _).locate = _
        rw [PlainCursor.behindBlock_behindBlock]

theorem takeTurn_eq (hc : c.Sound) (count : Nat) (before : List S) :
    takeTurn count before c = .ok (.again (before ++ [ofList (c.plain.untaken.take count)])
      (c.plain.behindBlock count).locate) := by
  obtain ⟨notices, htake⟩ := hc.exists_take count
  rw [takeTurn, htake]
  rfl

/-- Block after block of one length, until the cursor is at its end. -/
theorem exists_tiles (hc : c.Sound) (hend : c.atEnd = false) {count : Nat} (hcount : 1 ≤ count)
    (before : List S) :
    ∃ blocks last, Tiles count c.plain.untaken blocks ∧ last.atEnd = true ∧
      last.contents = c.contents ∧
      ∀ limit, blocks.length ≤ limit →
        (untilEnd (takeTurn count)).runWithin limit before c =
          .ok (some (before ++ blocks, last)) := by
  -- Every block takes at least one element off those that are left.
  induction hleft : c.plain.untaken.length using Nat.strongRecOn generalizing c before with
  | _ left ih =>
    have hguard : (untilEnd (takeTurn count)).goesOn c = .ok true := goesOn_of_not_atEnd hend
    have hturn := hc.takeTurn_eq count before
    have hafter := hc.behindBlock count
    have hdone := PlainCursor.atEnd_behindBlock_iff hc.admissible count
    have hplace := PlainCursor.admissible_behindBlock hc.admissible count
    rw [← PlainCursor.atEnd_locate hplace] at hdone
    by_cases hfits : c.plain.untaken.length ≤ count
    · exact ⟨_, _, .singleton hcount hfits, hdone.mpr hfits, rfl,
        Loop.runWithin_of_again_of_le hguard hturn fun _ _ =>
          runWithin_of_atEnd (hdone.mpr hfits)⟩
    · have hmore : count < c.plain.untaken.length := Nat.lt_of_not_le hfits
      have hgoes : (c.plain.behindBlock count).locate.atEnd = false :=
        Bool.eq_false_iff.mpr (mt hdone.mp hfits)
      have hrest : (c.plain.behindBlock count).locate.plain.untaken =
          c.plain.untaken.drop count := PlainCursor.untaken_behindBlock c.plain count
      have hless : (c.plain.behindBlock count).locate.plain.untaken.length < left := by
        rw [hrest, List.length_drop]
        omega
      obtain ⟨blocks, last, htiles, hlast, hcontents, hrun⟩ :=
        ih _ hless hafter hgoes (before ++ [ofList (c.plain.untaken.take count)]) rfl
      rw [hrest] at htiles
      rw [List.append_assoc] at hrun
      exact ⟨_ :: blocks, last, .cons hcount hmore htiles, hlast, hcontents,
        Loop.runWithin_of_again_of_le hguard hturn hrun⟩

end Sound

variable [BEq α]

example : (on "aé🦀b").takeEach [1, 0, 2] =
    .ok ⟨["a", "", "é🦀"], ⟨"aé🦀b", 3, 4, 8⟩, []⟩ := by
  cbv

/-- Blocks taken one after the other are, one behind the other, the slice of as many
elements as all their counts together, and lead to the cursor that a single block of that
count leads to.  Blocks of one length from the first element to the end cut a sequence
into as many pieces as it takes, all but the last of that length. -/
theorem blocks_abut :
    (∀ c : Cursor S, c.Reachable → ∀ counts : List Nat, counts ≠ [] →
      ∃ blocks whole notices, c.takeEach counts = .ok blocks ∧
        Sequence.slice c.contents (max c.position 0).toNat
          (min ((max c.position 0).toNat + counts.sum) c.length) = .ok whole ∧
        blocks.answer.flatMap toList = toList whole ∧
        c.take (min counts.sum maxIndex) = .ok ⟨whole, blocks.cursor, notices⟩ ∧
        blocks.cursor.position = (min ((max c.position 0).toNat + counts.sum) c.length : Nat)) ∧
    (∀ s : S, Addressable s → ∀ count, 1 ≤ count →
      ∃ blocks last, Tiles count (toList s) blocks ∧ last.atEnd = true ∧ last.contents = s ∧
        ∀ limit, blocks.length ≤ limit →
          (untilEnd (takeTurn count)).runWithin limit [] (on s) = .ok (some (blocks, last))) := by
  constructor
  · intro c hc counts hcounts
    obtain ⟨count, counts, rfl⟩ := List.exists_cons_of_ne_nil hcounts
    obtain ⟨blocks, hblocks, hwhole, hlast⟩ := hc.sound.exists_takeEach count counts
    obtain ⟨notices, hone⟩ := hc.sound.exists_take (min (count :: counts).sum maxIndex)
    have hstart : (max c.position 0).toNat = c.position.toNat := by omega
    rw [PlainCursor.take_untaken_min hc.sound.admissible,
      PlainCursor.behindBlock_min hc.sound.admissible, ← hlast] at hone
    rw [hstart, hc.sound.coherent.length_eq]
    refine ⟨blocks, _, notices, hblocks, PlainCursor.slice_untaken c.plain _, ?_, hone, ?_⟩
    · rw [hwhole, LawfulSequence.toList_ofList]
    · rw [hlast]
      rfl
  · intro s hs count hcount
    have hend : (on s).atEnd = false := by
      apply Bool.eq_false_iff.mpr
      intro hlast
      have hposition : beforeFirst = (Sequence.length s : Int) := beq_iff_eq.mp hlast
      simp only [beforeFirst] at hposition
      omega
    obtain ⟨blocks, last, htiles, hlast, hcontents, hrun⟩ :=
      (Sound.on hs).exists_tiles hend hcount []
    exact ⟨blocks, last, htiles, hlast, hcontents, hrun⟩

/-- From a character of two bytes on, with an empty block between two others and more asked
for than there is; and the whole text in threes. -/
theorem blocks_abut_mixed_widths :
    (Cursor.mk "aé🦀b" 1 4 3).Reachable ∧ [1, 0, 1, maxIndex] ≠ [] ∧
    (∃ blocks whole notices, (Cursor.mk "aé🦀b" 1 4 3).takeEach [1, 0, 1, maxIndex] = .ok blocks ∧
      Sequence.slice "aé🦀b" 1 4 = .ok whole ∧
      blocks.answer.flatMap toList = toList whole ∧
      (Cursor.mk "aé🦀b" 1 4 3).take maxIndex = .ok ⟨whole, blocks.cursor, notices⟩ ∧
      blocks.cursor.position = 4) ∧
    Addressable "aé🦀b" ∧ 1 ≤ 3 ∧
    ∃ blocks last, Tiles 3 (toList "aé🦀b") blocks ∧ last.atEnd = true ∧
      last.contents = "aé🦀b" ∧
      (untilEnd (takeTurn 3)).runWithin 2 [] (on "aé🦀b") = .ok (some (blocks, last)) := by
  have htext : Addressable "aé🦀b" := Text.addressable_mixed_widths
  have hreachable : (Cursor.mk "aé🦀b" 1 4 3).Reachable :=
    reachable_mixed_widths (by decide +kernel)
  have hcounts : [1, 0, 1, maxIndex] ≠ [] := List.cons_ne_nil _ _
  have hsum : min [1, 0, 1, maxIndex].sum maxIndex = maxIndex := by decide +kernel
  have hstop : min ((max (Cursor.mk "aé🦀b" 1 4 3).position 0).toNat + [1, 0, 1, maxIndex].sum)
      (Cursor.mk "aé🦀b" 1 4 3).length = 4 := by
    decide +kernel
  obtain ⟨blocks, whole, notices, hblocks, hwhole, hjoined, hone, hposition⟩ :=
    blocks_abut.1 _ hreachable _ hcounts
  rw [hsum] at hone
  rw [hstop] at hwhole hposition
  obtain ⟨pieces, last, htiles, hlast, hcontents, hrun⟩ := blocks_abut.2 "aé🦀b" htext 3 (by decide)
  exact ⟨hreachable, hcounts,
    ⟨blocks, whole, notices, hblocks, hwhole, hjoined, hone, hposition⟩, htext, by decide,
    pieces, last, htiles, hlast, hcontents, hrun 2 (Nat.le_of_eq htiles.length_eq)⟩

/-- How a block interferes with single reads.  Before the first element it takes what they
would read and drops the element behind it; behind a read it starts with the element that
was read, and so takes one fewer of those that are left.  An empty block behind a read, and
any block at the end, changes nothing.  Afterwards the cursor is on the element that stopped
the block. -/
theorem blocks_beside_reads {c : Cursor S} (hc : c.Reachable) (count : Nat) :
    ∃ block rest after, c.take count = .ok block ∧ c.remaining = .ok rest ∧
      block.cursor.remaining = .ok after ∧
      (c.position = beforeFirst →
        toList block.answer = (toList rest).take count ∧
        toList after = (toList rest).drop (count + 1) ∧
        block.cursor.current = (toList rest)[count]? ∧
        ∃ read, block.cursor.next = .ok read ∧ read.answer = (toList rest)[count + 1]?) ∧
      (0 ≤ c.position → c.position < c.length → 1 ≤ count →
        ∃ element, c.current = some element ∧
          toList block.answer = element :: (toList rest).take (count - 1) ∧
          toList after = (toList rest).drop count) ∧
      ((0 ≤ c.position ∧ count = 0) ∨ c.position = c.length →
        toList block.answer = [] ∧ block.cursor = c) ∧
      ∃ stop : Nat, stop = min ((max c.position 0).toNat + count) c.length ∧
        block.cursor.position = stop ∧
        block.cursor.current = get? c.contents stop ∧
        block.cursor.peek = .ok (get? c.contents (stop + 1)) := by
  have hplace := hc.sound.admissible
  have hlength : c.length = c.plain.length := hc.sound.coherent.length_eq
  have hafter := PlainCursor.admissible_behindBlock hplace count
  have hstart : (max c.position 0).toNat = c.plain.position.toNat := by
    change _ = c.position.toNat
    omega
  have hleft : (c.plain.behindBlock count).locate.plain.rest = c.plain.untaken.drop (count + 1) :=
    PlainCursor.rest_behindBlock c.plain count
  obtain ⟨notices, htake⟩ := hc.sound.exists_take count
  refine ⟨_, _, _, htake, hc.sound.remaining_eq, (hc.sound.behindBlock count).remaining_eq, ?_⟩
  rw [LawfulSequence.toList_ofList, LawfulSequence.toList_ofList, LawfulSequence.toList_ofList,
    hleft]
  refine ⟨?_, ?_, ?_, _, rfl, ?_, ?_, ?_⟩
  · intro hfirst
    rw [← PlainCursor.untaken_of_beforeFirst hfirst]
    refine ⟨rfl, rfl, ?_, _, PlainCursor.next_locate hafter, ?_⟩
    · exact (PlainCursor.current_moveTo_index c.plain _).trans
        (PlainCursor.get?_behindBlock c.plain count)
    · exact PlainCursor.peek_behindBlock hplace count
  · intro hfirst hlast hcount
    rw [hlength] at hlast
    obtain ⟨element, hcurrent, htaken, hleft⟩ :=
      PlainCursor.exists_take_untaken hfirst hlast hcount
    refine ⟨element, ?_, htaken, hleft⟩
    rw [← hc.sound.locate_plain, PlainCursor.current_locate, hcurrent]
  · intro hstays
    rw [hlength] at hstays
    obtain ⟨hnone, hsame⟩ := PlainCursor.behindBlock_eq_self hplace hstays
    refine ⟨hnone, ?_⟩
    rw [hsame, hc.sound.locate_plain]
  · rw [hstart, hlength]
    rfl
  · rw [hstart, hlength]
    exact PlainCursor.current_moveTo_index c.plain _
  · rw [hstart, hlength, PlainCursor.peek_locate hafter]
    exact congrArg Except.ok (PlainCursor.peek_moveTo_index c.plain _)

/-- A block of two before the first character, and one behind a read. -/
theorem blocks_beside_reads_mixed_widths :
    (on "aé🦀b").Reachable ∧
    (∃ block rest after, (on "aé🦀b").take 2 = .ok block ∧
      (on "aé🦀b").remaining = .ok rest ∧ block.cursor.remaining = .ok after ∧
      toList block.answer = (toList rest).take 2 ∧
      toList after = (toList rest).drop 3 ∧
      block.cursor.current = (toList rest)[2]?) ∧
    (Cursor.mk "aé🦀b" 1 4 3).Reachable ∧
    ∃ block rest after element, (Cursor.mk "aé🦀b" 1 4 3).take 2 = .ok block ∧
      (Cursor.mk "aé🦀b" 1 4 3).remaining = .ok rest ∧ block.cursor.remaining = .ok after ∧
      (Cursor.mk "aé🦀b" 1 4 3).current = some element ∧
      toList block.answer = element :: (toList rest).take 1 ∧
      toList after = (toList rest).drop 2 := by
  have hfresh : (on "aé🦀b").Reachable := reachable_on Text.addressable_mixed_widths
  have hread : (Cursor.mk "aé🦀b" 1 4 3).Reachable := reachable_mixed_widths (by decide +kernel)
  obtain ⟨block, rest, after, hblock, hrest, hafter, hfirst, -⟩ := blocks_beside_reads hfresh 2
  obtain ⟨htaken, hleft, hcurrent, -⟩ := hfirst rfl
  obtain ⟨later, unread, left, hlater, hunread, hremaining, -, hsecond, -⟩ :=
    blocks_beside_reads hread 2
  obtain ⟨element, helement, hwith, hdropped⟩ := hsecond (by decide) (by decide) (by decide)
  exact ⟨hfresh, ⟨block, rest, after, hblock, hrest, hafter, htaken, hleft, hcurrent⟩, hread,
    later, unread, left, element, hlater, hunread, hremaining, helement, hwith, hdropped⟩

end Cursor

end SeqCursor
