import SeqCursor.Proofs.FirstOccurrence
import SeqCursor.Proofs.Termination

/-!
# Repeated searches

A search for a value ends behind the element after its first occurrence, whatever that
element is, and at the end where the value does not occur.  A client that searches again
and again as long as something is found comes to the end, and finds the occurrences of a
chain: the first one behind the cursor, then each time the first one behind the element
after the last.  Of two occurrences side by side only the first is in the chain.
-/

namespace SeqCursor

open Sequence

variable {σ S α : Type} [Sequence S α]

/-- The indices at which a value is found by searching behind `position` and then, each
time, behind the element after the last find. -/
inductive Sequence.Finds [BEq α] (s : S) (value : α) : Int → List Nat → Prop where
  | done {position : Int} : NoneBehind s position value → Finds s value position []
  | found {position : Int} {index : Nat} {indices : List Nat} :
      FirstBehind s position value index → Finds s value (index + 1) indices →
      Finds s value position (index :: indices)

namespace Sequence

variable [BEq α] {s : S} {position : Int} {value : α} {index : Nat}

theorem FirstBehind.unique {other : Nat} (hindex : FirstBehind s position value index)
    (hother : FirstBehind s position value other) : index = other := by
  rcases Nat.lt_trichotomy index other with hlt | heq | hlt
  · exact absurd hindex.equal (by simp [hother.earlier index hindex.behind hlt])
  · exact heq
  · exact absurd hother.equal (by simp [hindex.earlier other hother.behind hlt])

theorem NoneBehind.not_firstBehind (hnone : NoneBehind s position value) :
    ¬ FirstBehind s position value index := by
  intro hfirst
  have hequal := hfirst.equal
  rw [hnone index hfirst.behind] at hequal
  cases hequal

/-- What is compared with the value is what lies behind the position, up to the first
occurrence. -/
theorem FirstBehind.of_agree {same : α → α → Bool} (hfirst : FirstBehind s position value index)
    (hagree : ∀ i ≤ index, (get? s i).any (same · value) = (get? s i).any (· == value)) :
    @FirstBehind S α _ ⟨same⟩ s position value index := by
  have hequal := (hagree index (Nat.le_refl _)).trans hfirst.equal
  have hearlier : ∀ i : Nat, position < i → i < index → (get? s i).any (same · value) = false := by
    intro i hbehind hi
    exact (hagree i (Nat.le_of_lt hi)).trans (hfirst.earlier i hbehind hi)
  exact @FirstBehind.mk S α _ ⟨same⟩ s position value index hfirst.behind hequal hearlier

/-- There is one chain of finds only. -/
theorem Finds.unique {left right : List Nat} (hleft : Finds s value position left)
    (hright : Finds s value position right) : left = right := by
  induction hleft generalizing right with
  | done hnone =>
      cases hright with
      | done _ => rfl
      | found hfirst _ => exact absurd hfirst hnone.not_firstBehind
  | found hfirst _ ih =>
      cases hright with
      | done hnone => exact absurd hfirst hnone.not_firstBehind
      | found hother hlater =>
          obtain rfl := hfirst.unique hother
          rw [ih hlater]

end Sequence

namespace PlainCursor

variable [BEq α] [LawfulSequence S α] {c : PlainCursor S}

theorem exists_firstBehind_or_noneBehind (hc : c.Admissible) (value : α) :
    (∃ index, FirstBehind c.sequence c.position value index) ∨
      NoneBehind c.sequence c.position value := by
  rcases findIdx_lt_or_eq_length (· == value) c.rest with hfound | hall
  · exact Or.inl ⟨_, (firstBehind_iff hc value _).mpr ⟨hfound, rfl⟩⟩
  · exact Or.inr ((noneBehind_iff hc value).mpr hall)

/-- A scan for the value ends on its first occurrence. -/
theorem exists_scan (hc : c.Admissible) {value : α} {index : Nat}
    (hfirst : FirstBehind c.sequence c.position value index) :
    ∃ passed element, c.scan (· == value) = (⟨passed, some element⟩, c.moveTo index) := by
  obtain ⟨hfound, rfl⟩ := (firstBehind_iff hc value index).mp hfirst
  exact ⟨_, _, scan_of_lt hc hfound⟩

end PlainCursor

namespace Cursor

variable {c : Cursor S}

/-- Reads up to a value, and skips one more where the value was found, which is where the
read has not come to the end. -/
def upToAndOn [BEq α] (c : Cursor S) (value : α) : Except Fault (Cursor S) := do
  let read ← c.upTo value
  if read.cursor.atEnd then
    return read.cursor
  else
    let skipped ← read.cursor.skip 1
    return skipped.cursor

/-- The loop that only its turns leave. -/
def untilLeft (turn : σ → Cursor S → Except Fault (Turn σ S)) : Loop σ S where
  goesOn _ := .ok true
  turn := turn

/-- The turn of a client that searches for a value and counts what it has found. -/
def searchTurn [BEq α] (value : α) (finds : Nat) (c : Cursor S) : Except Fault (Turn Nat S) := do
  let search ← c.skipPast value
  if search.answer then
    return .again (finds + 1) search.cursor
  else
    return .leave finds search.cursor

variable [BEq α]

theorem searchTurn_of_skipPast {value : α} {search : Reply (Cursor S) Bool} (finds : Nat)
    (hsearch : c.skipPast value = .ok search) :
    searchTurn value finds c =
      .ok (if search.answer then
        .again (finds + 1) search.cursor
      else
        .leave finds search.cursor) := by
  rw [searchTurn, hsearch]
  change (if search.answer then _ else _) = _
  cases search.answer <;> rfl

theorem upToAndOn_of_upTo {value : α} {read : Reply (Cursor S) S}
    (hread : c.upTo value = .ok read) :
    c.upToAndOn value =
      if read.cursor.atEnd then
        .ok read.cursor
      else
        read.cursor.skip 1 >>= fun skipped => .ok skipped.cursor := by
  rw [upToAndOn, hread]
  rfl

variable [LawfulSequence S α]

namespace Sound

variable {value : α} {index : Nat}

theorem index_lt_length (hc : c.Sound) (hfirst : FirstBehind c.contents c.position value index) :
    index < c.length := by
  obtain ⟨hfound, rfl⟩ := (PlainCursor.firstBehind_iff hc.admissible value index).mp hfirst
  rw [hc.coherent.length_eq]
  exact PlainCursor.index_lt_length hfound

/-- From the element that was found, a move by one stays within the sequence. -/
theorem skip_one (hc : c.Sound) (hfirst : FirstBehind c.contents c.position value index) :
    (c.plain.moveTo index).skip 1 = ⟨(), c.plain.moveTo (index + 1 : Nat), []⟩ := by
  have hindex := hc.index_lt_length hfirst
  rw [hc.coherent.length_eq] at hindex
  have hplace := hc.admissible.moveTo_index (Nat.le_of_lt hindex)
  have hnext := hc.admissible.moveTo_index hindex
  exact PlainCursor.skip_of_range hplace ⟨hnext.beforeFirst_le, hnext.position_le⟩

theorem sound_behind (hc : c.Sound) (hfirst : FirstBehind c.contents c.position value index) :
    (c.plain.moveTo (index + 1 : Nat)).locate.Sound := by
  have hindex := hc.index_lt_length hfirst
  rw [hc.coherent.length_eq] at hindex
  exact PlainCursor.sound_locate (hc.admissible.moveTo_index hindex)

/-- A search goes one element past the first occurrence. -/
theorem skipPast_of_firstBehind (hc : c.Sound)
    (hfirst : FirstBehind c.contents c.position value index) :
    c.skipPast value = .ok ⟨true, (c.plain.moveTo (index + 1 : Nat)).locate, []⟩ := by
  have hskip := hc.skip_one hfirst
  have hsearch := PlainCursor.skipPast_locate hc.admissible value
  obtain ⟨passed, element, hscan⟩ := PlainCursor.exists_scan hc.admissible hfirst
  rw [hc.locate_plain, hscan] at hsearch
  change _ = Except.ok (Reply.mk true ((c.plain.moveTo index).skip 1).cursor.locate
    ((c.plain.moveTo index).skip 1).notices) at hsearch
  rwa [hskip] at hsearch

/-- A search in vain goes to the end. -/
theorem skipPast_of_noneBehind (hc : c.Sound)
    (hnone : NoneBehind c.contents c.position value) :
    c.skipPast value = .ok ⟨false, (c.plain.moveTo c.plain.length).locate, []⟩ := by
  have hsearch := PlainCursor.skipPast_locate hc.admissible value
  have hall := (PlainCursor.noneBehind_iff hc.admissible value).mp hnone
  rwa [hc.locate_plain, PlainCursor.scan_of_eq hc.admissible hall] at hsearch

theorem upToAndOn_of_firstBehind (hc : c.Sound)
    (hfirst : FirstBehind c.contents c.position value index) :
    c.upToAndOn value = .ok (c.plain.moveTo (index + 1 : Nat)).locate := by
  have hskip := hc.skip_one hfirst
  obtain ⟨hfound, rfl⟩ := (PlainCursor.firstBehind_iff hc.admissible value index).mp hfirst
  have hplace := PlainCursor.admissible_index hc.admissible hfound
  rw [upToAndOn_of_upTo (hc.upTo_of_lt hfound), PlainCursor.atEnd_index hc.admissible hfound,
    PlainCursor.skip_locate hplace, hskip]
  rfl

theorem upToAndOn_of_noneBehind (hc : c.Sound)
    (hnone : NoneBehind c.contents c.position value) :
    c.upToAndOn value = .ok (c.plain.moveTo c.plain.length).locate := by
  have hall := (PlainCursor.noneBehind_iff hc.admissible value).mp hnone
  rw [upToAndOn_of_upTo (hc.upTo_of_eq hall), PlainCursor.atEnd_seekEnd hc.admissible]
  rfl

/-- Searches repeated as long as something is found find a chain, and lead to the end. -/
theorem exists_finds (hc : c.Sound) (value : α) (before : Nat) :
    ∃ indices last, Finds c.contents value c.position indices ∧ last.atEnd = true ∧
      last.contents = c.contents ∧
      ∀ limit, indices.length < limit →
        (untilLeft (searchTurn value)).runWithin limit before c =
          .ok (some (before + indices.length, last)) := by
  -- Every find takes the cursor on, so that less is left to go.
  induction hleft : c.toGo using Nat.strongRecOn generalizing c before with
  | _ left ih =>
    have hguard : (untilLeft (searchTurn value)).goesOn c = .ok true := rfl
    rcases PlainCursor.exists_firstBehind_or_noneBehind hc.admissible value with
      ⟨index, hfirst⟩ | hnone
    · have hturn := searchTurn_of_skipPast before (hc.skipPast_of_firstBehind hfirst)
      have hafter := hc.sound_behind hfirst
      have hless : (c.plain.moveTo (index + 1 : Nat)).locate.toGo < left := by
        have hbehind : c.position < index := hfirst.behind
        rw [← hleft]
        apply hc.toGo_lt hafter rfl
        change c.position < ((index + 1 : Nat) : Int)
        omega
      obtain ⟨indices, last, hfinds, hlast, hcontents, hrun⟩ := ih _ hless hafter (before + 1) rfl
      rw [Nat.add_assoc, Nat.add_comm 1] at hrun
      exact ⟨index :: indices, last, .found hfirst hfinds, hlast, hcontents,
        Loop.runWithin_of_again_of_le hguard hturn hrun⟩
    · have hturn := searchTurn_of_skipPast before (hc.skipPast_of_noneBehind hnone)
      exact ⟨[], _, .done hnone, PlainCursor.atEnd_seekEnd hc.admissible, rfl,
        Loop.runWithin_of_leave_of_le hguard hturn⟩

end Sound

example : (on "aabaca").skipPast 'a' = .ok ⟨true, ⟨"aabaca", 1, 6, 2⟩, []⟩ := by
  cbv

/-- A search answers whether the value occurs behind the position.  If it does, the cursor
moves one past its first occurrence, to the end if that is the last element, and what is
stored there is not compared; otherwise it moves to the end.  So it moves where reading up
to the value and one more leads.  Searches repeated until one is in vain lead to the end,
and the number of finds is that of the indices in the one chain of them. -/
theorem repeated_search_finds_chain (hc : c.Reachable) (value : α) :
    (∃ search, c.skipPast value = .ok search ∧ search.notices = [] ∧
      search.cursor.contents = c.contents ∧
      (search.answer = true ↔ ∃ index : Nat, c.position < index ∧ index < c.length ∧
        (get? c.contents index).any (· == value) = true) ∧
      (∀ index, FirstBehind c.contents c.position value index →
        index + 1 ≤ c.length ∧ search.cursor.position = (index + 1 : Nat) ∧
        search.cursor.remaining = Sequence.slice c.contents (index + 2) c.length ∧
        ∀ same : α → α → Bool,
          (∀ i ≤ index, (get? c.contents i).any (same · value) =
            (get? c.contents i).any (· == value)) →
          @skipPast S α _ ⟨same⟩ c value = .ok search) ∧
      (search.answer = false → search.cursor.position = c.length) ∧
      c.upToAndOn value = .ok search.cursor) ∧
    ∃ indices last, Finds c.contents value c.position indices ∧
      (∀ other, Finds c.contents value c.position other → other = indices) ∧
      last.atEnd = true ∧
      ∀ limit, indices.length < limit →
        (untilLeft (searchTurn value)).runWithin limit 0 c =
          .ok (some (indices.length, last)) := by
  have hsound := hc.sound
  constructor
  · rcases PlainCursor.exists_firstBehind_or_noneBehind hsound.admissible value with
      ⟨first, hfirst⟩ | hnone
    · have hindex := hsound.index_lt_length hfirst
      refine ⟨_, hsound.skipPast_of_firstBehind hfirst, rfl, rfl, ?_, ?_, Bool.noConfusion,
        hsound.upToAndOn_of_firstBehind hfirst⟩
      · exact iff_of_true rfl ⟨first, hfirst.behind, hindex, hfirst.equal⟩
      · intro index hother
        obtain rfl := hfirst.unique hother
        refine ⟨hindex, rfl, ?_, ?_⟩
        · have hafter := (hsound.sound_behind hfirst).admissible
          have hremaining := PlainCursor.remaining_locate hafter
          rw [hsound.coherent.length_eq]
          exact hremaining
        · intro same hagree
          exact @Sound.skipPast_of_firstBehind S α _ c ⟨same⟩ _ value first hsound
            (hfirst.of_agree hagree)
    · refine ⟨_, hsound.skipPast_of_noneBehind hnone, rfl, rfl, ?_, ?_, ?_,
        hsound.upToAndOn_of_noneBehind hnone⟩
      · apply iff_of_false Bool.false_ne_true
        rintro ⟨index, hbehind, -, hequal⟩
        exact absurd (hnone index hbehind) (Bool.not_eq_false _ ▸ hequal)
      · intro index hfirst
        exact absurd hfirst hnone.not_firstBehind
      · intro _
        exact congrArg Nat.cast hsound.coherent.length_eq.symm
  · obtain ⟨indices, last, hfinds, hlast, -, hrun⟩ := hsound.exists_finds value 0
    rw [Nat.zero_add] at hrun
    exact ⟨indices, last, hfinds, fun other hother => hother.unique hfinds, hlast, hrun⟩

/-- Of two commas side by side the second is jumped, and so is what follows every other one;
the last one ends the text.  A test that holds of more behind the first comma finds the
same. -/
theorem repeated_search_finds_chain_commas :
    (on ",,é,🦀,").Reachable ∧ FirstBehind ",,é,🦀," beforeFirst ',' 0 ∧
    (∃ search, (on ",,é,🦀,").skipPast ',' = .ok search ∧ search.notices = [] ∧
      search.cursor.position = 1 ∧
      @skipPast String Char _ ⟨fun stored _ => stored == ',' || stored == 'é'⟩
        (on ",,é,🦀,") ',' = .ok search) ∧
    Finds ",,é,🦀," ',' beforeFirst [0, 3, 5] ∧
    ∃ last, (untilLeft (searchTurn ',')).runWithin 4 0 (on ",,é,🦀,") = .ok (some (3, last)) ∧
      last.atEnd = true := by
  have hreachable : (on ",,é,🦀,").Reachable :=
    reachable_on (Text.addressable (by decide) (by decide))
  have hfirst : FirstBehind ",,é,🦀," beforeFirst ',' 0 := by
    refine ⟨by decide, rfl, ?_⟩
    intro i _ hi
    exact absurd hi (Nat.not_lt_zero i)
  have hsecond : FirstBehind ",,é,🦀," ((0 : Nat) + 1) ',' 3 := by
    refine ⟨by decide, rfl, ?_⟩
    intro i hbehind hi
    obtain rfl : i = 2 := by omega
    rfl
  have hthird : FirstBehind ",,é,🦀," ((3 : Nat) + 1) ',' 5 := by
    refine ⟨by decide, rfl, ?_⟩
    intro i hbehind hi
    omega
  have hnone : NoneBehind ",,é,🦀," ((5 : Nat) + 1) ',' := by
    intro index hbehind
    have hlast : (toList ",,é,🦀,").length ≤ index := by
      change 6 ≤ index
      omega
    rw [LawfulSequence.get?_eq, List.getElem?_eq_none hlast]
    rfl
  have hfinds : Finds ",,é,🦀," ',' beforeFirst [0, 3, 5] :=
    .found hfirst (.found hsecond (.found hthird (.done hnone)))
  obtain ⟨⟨search, hsearch, hnotices, -, -, hfound, -⟩, indices, last, -, hunique, hlast, hrun⟩ :=
    repeated_search_finds_chain hreachable ','
  obtain ⟨-, hposition, -, hsame⟩ := hfound 0 hfirst
  obtain rfl := hunique _ hfinds
  refine ⟨hreachable, hfirst, ⟨search, hsearch, hnotices, hposition, hsame _ ?_⟩, hfinds, last,
    hrun 4 (by decide), hlast⟩
  intro i hi
  obtain rfl := Nat.le_zero.mp hi
  rfl

end Cursor

end SeqCursor
