import SeqCursor.Sequence.Text

/-!
# Places in text

The places between the characters of a string are exactly those that are reached
by walking from its start.  Everything that `SeqCursor.Text` reads through a byte
offset is therefore stated here by the index that leads to the offset, with the
list of characters as the only view of the text.
-/

namespace SeqCursor.Text

variable {s : String}

theorem pos?_eq_some_iff {offset : String.Pos.Raw} {place : s.Pos} :
    s.pos? offset = some place ↔ place.offset = offset := by
  rw [String.pos?, String.Slice.pos?]
  constructor
  · intro hplace
    split at hplace
    · simp only [Option.map_some, Option.some.injEq] at hplace
      rw [← hplace]
      rfl
    · simp at hplace
  · rintro rfl
    have hvalid : place.offset.IsValidForSlice s.toSlice := place.isValid.toSlice
    rw [dif_pos (String.Pos.Raw.isValidForSlice_eq_true_iff.2 hvalid)]
    simp only [Option.map_some, Option.some.injEq]
    ext
    rfl

@[simp]
theorem pos?_offsetOf (s : String) (index : Nat) :
    s.pos? ⟨offsetOf s index⟩ = some (s.startPos.nextn index) :=
  pos?_eq_some_iff.2 rfl

/-- Every place is reached from the start. -/
theorem exists_nextn_eq (place : s.Pos) :
    ∃ index ≤ s.length, s.startPos.nextn index = place := by
  obtain ⟨before, after, hsplits⟩ : ∃ before after, place.Splits before after :=
    ⟨_, _, place.splits⟩
  have hs := hsplits.eq_append
  refine ⟨before.length, ?_, ?_⟩
  · rw [hs]
    simp
  · have hwalked := String.splits_nextn_startPos s before.length
    have hbefore : String.ofList (s.toList.take before.length) = before := by
      rw [hs]
      simp [← String.length_toList]
    rw [hbefore] at hwalked
    exact hwalked.pos_eq hsplits

/-- The place behind the character at an index has that character before it. -/
theorem splits_nextn_succ {index : Nat} {c : Char} (hc : s.toList[index]? = some c) :
    (s.startPos.nextn (index + 1)).Splits
      (String.ofList (s.toList.take index) ++ String.singleton c)
      (String.ofList (s.toList.drop (index + 1))) := by
  obtain ⟨hlt, rfl⟩ := List.getElem?_eq_some_iff.1 hc
  have hsplits := String.splits_nextn_startPos s (index + 1)
  rwa [← List.take_append_getElem hlt, String.ofList_append,
    ← String.singleton_eq_ofList] at hsplits

theorem get?_nextn (s : String) (index : Nat) :
    (s.startPos.nextn index).get? = s.toList[index]? := by
  have hsplits := String.splits_nextn_startPos s index
  by_cases hend : index < s.toList.length
  · rw [List.drop_eq_getElem_cons hend, String.ofList_cons] at hsplits
    rw [String.Pos.get?_eq_some_get hsplits.ne_endPos_of_singleton,
      hsplits.next.get_eq_of_singleton, List.getElem?_eq_getElem hend]
  · rw [List.drop_eq_nil_of_le (by omega)] at hsplits
    rw [List.getElem?_eq_none (by omega), String.Pos.get?_eq_none_iff]
    exact hsplits.eq_endPos_iff.2 rfl

theorem prev?_nextn_succ {index : Nat} (hindex : index < s.length) :
    (s.startPos.nextn (index + 1)).prev? = some (s.startPos.nextn index) := by
  rw [← String.length_toList] at hindex
  have hsplits := splits_nextn_succ (List.getElem?_eq_getElem hindex)
  rw [String.Pos.prev?_eq_some_prev hsplits.ne_startPos_of_singleton]
  exact congrArg some (hsplits.prev.pos_eq (String.splits_nextn_startPos s index))

theorem extract_nextn {start stop : Nat} (h : start ≤ stop) :
    s.extract (s.startPos.nextn start) (s.startPos.nextn stop) =
      String.ofList ((s.toList.take stop).drop start) := by
  have hstart := String.splits_nextn_startPos s start
  have hstop := String.splits_nextn_startPos s stop
  have hparts : String.ofList (s.toList.take stop) =
      String.ofList (s.toList.take start) ++ String.ofList ((s.toList.take stop).drop start) := by
    have hcut := List.take_append_drop start (s.toList.take stop)
    rw [List.take_take, Nat.min_eq_left h] at hcut
    rw [← String.ofList_append, hcut]
  have hwithin (first last : Nat) :
      s.toByteArray.extract first last = (s.toByteArray.extract 0 last).extract first last := by
    simp [ByteArray.extract_extract]
  rw [hparts] at hstop
  rw [← String.toByteArray_inj, String.toByteArray_extract, hwithin,
    ← hstop.toByteArray_left_eq, String.toByteArray_append]
  apply ByteArray.extract_append_eq_right
  · rw [hstart.offset_eq_rawEndPos, String.byteIdx_rawEndPos, String.size_toByteArray]
  · rw [hstop.offset_eq_rawEndPos, String.byteIdx_rawEndPos, String.utf8ByteSize_append,
      String.size_toByteArray, String.size_toByteArray]

/-- The offset of a character is the number of bytes taken by those before it. -/
theorem offsetOf_eq (s : String) (index : Nat) :
    offsetOf s index = (String.ofList (s.toList.take index)).utf8ByteSize := by
  have hsplits := String.splits_nextn_startPos s index
  rw [offsetOf, hsplits.offset_eq_rawEndPos, String.byteIdx_rawEndPos]

@[simp]
theorem offsetOf_zero (s : String) : offsetOf s 0 = 0 := by
  rw [offsetOf, String.Pos.nextn_zero, String.offset_startPos, String.Pos.Raw.byteIdx_zero]

theorem offsetOf_succ {index : Nat} {c : Char} (hc : s.toList[index]? = some c) :
    offsetOf s (index + 1) = offsetOf s index + c.utf8Size := by
  obtain ⟨hlt, rfl⟩ := List.getElem?_eq_some_iff.1 hc
  rw [offsetOf_eq, offsetOf_eq, ← List.take_append_getElem hlt, String.ofList_append,
    String.utf8ByteSize_append, ← String.singleton_eq_ofList, String.utf8ByteSize_singleton]

theorem offsetOf_of_length_le {index : Nat} (h : s.length ≤ index) :
    offsetOf s index = s.utf8ByteSize := by
  rw [offsetOf_eq, List.take_of_length_le (by rwa [String.length_toList]), String.ofList_toList]

theorem offsetOf_le_offsetOf_succ (s : String) (index : Nat) :
    offsetOf s index ≤ offsetOf s (index + 1) := by
  cases hc : s.toList[index]? with
  | some c => simp [offsetOf_succ hc]
  | none =>
      have hlength : s.length ≤ index := by
        rw [← String.length_toList]
        exact List.getElem?_eq_none_iff.1 hc
      exact Nat.le_of_eq ((offsetOf_of_length_le hlength).trans
        (offsetOf_of_length_le (by omega)).symm)

theorem offsetOf_mono (s : String) {i j : Nat} (h : i ≤ j) : offsetOf s i ≤ offsetOf s j := by
  induction h with
  | refl => exact Nat.le_refl _
  | step _ ih => exact Nat.le_trans ih (offsetOf_le_offsetOf_succ s _)

theorem offsetOf_lt_offsetOf {i j : Nat} (h : i < j) (hj : j ≤ s.length) :
    offsetOf s i < offsetOf s j := by
  have hi : i < s.toList.length := by
    rw [String.length_toList]
    omega
  have hstep := offsetOf_succ (List.getElem?_eq_getElem hi)
  have hwidth := Char.utf8Size_pos s.toList[i]
  have hrest := offsetOf_mono s (Nat.succ_le_of_lt h)
  simp only [Nat.succ_eq_add_one] at hrest
  omega

/-- Offsets within a part of the text count on from the offset of its start. -/
theorem offsetOf_slice {start stop index : Nat} (h : start + index ≤ min stop s.length) :
    offsetOf s start + offsetOf (String.ofList ((s.toList.take stop).drop start)) index =
      offsetOf s (start + index) := by
  have hwithin : (((s.toList.take stop).drop start).take index) =
      (s.toList.drop start).take index := by
    rw [List.drop_take, List.take_take, Nat.min_eq_left (by omega)]
  rw [offsetOf_eq, offsetOf_eq, offsetOf_eq, String.toList_ofList, hwithin, List.take_add,
    String.ofList_append, String.utf8ByteSize_append]

/-- Reading at the offset of an index reads the character at the index, and leads
to the offset of the next one. -/
theorem atOffset_offsetOf (s : String) (index : Nat) :
    atOffset s (offsetOf s index) =
      match s.toList[index]? with
      | none => .ok none
      | some c => (Offset.advance (offsetOf s index) c.utf8Size).map fun following =>
          some (c, following) := by
  rw [atOffset, pos?_offsetOf]
  simp only [get?_nextn]
  cases s.toList[index]? with
  | none => rfl
  | some c => cases h : Offset.advance (offsetOf s index) c.utf8Size <;> simp [h] <;> rfl

/-- Reading back from the offset behind an index reads the character at it. -/
theorem beforeOffset_offsetOf_succ {index : Nat} (h : index < s.length) :
    beforeOffset s (offsetOf s (index + 1)) = s.toList[index]? := by
  simp [beforeOffset, prev?_nextn_succ h, get?_nextn]

theorem beforeOffset_zero (s : String) : beforeOffset s 0 = none := by
  have hplace : s.pos? ⟨0⟩ = some s.startPos := pos?_eq_some_iff.2 rfl
  rw [beforeOffset, hplace]
  simp

/-- An offset at which there is a place is the offset of an index. -/
theorem exists_offsetOf_eq {offset : Nat} {place : s.Pos} (hplace : s.pos? ⟨offset⟩ = some place) :
    ∃ index ≤ s.length, offsetOf s index = offset ∧ s.startPos.nextn index = place := by
  obtain ⟨index, hindex, hwalked⟩ := exists_nextn_eq place
  refine ⟨index, hindex, ?_, hwalked⟩
  rw [offsetOf, hwalked, pos?_eq_some_iff.1 hplace]

/-- Nothing is read at an offset inside a character or from the end of storage on. -/
theorem atOffset_eq_none_iff (s : String) (offset : Nat) :
    atOffset s offset = .ok none ↔ ∀ index < s.length, offset ≠ offsetOf s index := by
  constructor
  · rintro hnone index hindex rfl
    rw [← String.length_toList] at hindex
    rw [atOffset_offsetOf, List.getElem?_eq_getElem hindex] at hnone
    cases hstep : Offset.advance (offsetOf s index) s.toList[index].utf8Size <;>
      simp [hstep, Except.map] at hnone
  · intro hother
    rw [atOffset]
    cases hplace : s.pos? ⟨offset⟩ with
    | none => rfl
    | some place =>
        -- The only place that no character starts at is the end.
        obtain ⟨index, hindex, hoffset, rfl⟩ := exists_offsetOf_eq hplace
        have hlast : s.length ≤ index :=
          Nat.le_of_not_lt fun hbefore => hother index hbefore hoffset.symm
        have hend : (s.startPos.nextn index).get? = none := by
          rw [get?_nextn, List.getElem?_eq_none (by rwa [String.length_toList])]
        simp only [hend]

/-- Nothing is read back from the start, inside a character or past the end of
storage. -/
theorem beforeOffset_eq_none_iff (s : String) (offset : Nat) :
    beforeOffset s offset = none ↔ ∀ index < s.length, offset ≠ offsetOf s (index + 1) := by
  constructor
  · rintro hnone index hindex rfl
    rw [beforeOffset_offsetOf_succ hindex, List.getElem?_eq_none_iff,
      String.length_toList] at hnone
    exact absurd hindex (Nat.not_lt.mpr hnone)
  · intro hother
    cases hplace : s.pos? ⟨offset⟩ with
    | none => simp [beforeOffset, hplace]
    | some place =>
        obtain ⟨index, hindex, rfl, -⟩ := exists_offsetOf_eq hplace
        cases index with
        | zero => rw [offsetOf_zero, beforeOffset_zero]
        | succ index => exact absurd rfl (hother index hindex)

theorem cut_offsetOf {start stop : Nat} (h : start ≤ stop) :
    cut s (offsetOf s start) (offsetOf s stop) =
      .ok (String.ofList ((s.toList.take stop).drop start)) := by
  have hle : s.startPos.nextn start ≤ s.startPos.nextn stop := offsetOf_mono s h
  simp [cut, hle, extract_nextn h]

/-- A slice holds the characters with indices in the range, and is never refused. -/
theorem slice_eq (s : String) (start stop : Nat) :
    slice s start stop = .ok (String.ofList ((s.toList.take stop).drop start)) := by
  dsimp only [slice]
  rcases Nat.le_total start stop with h | h
  · rw [Nat.min_eq_left (offsetOf_mono s h), cut_offsetOf h]
  · rw [Nat.min_eq_right (offsetOf_mono s h), cut_offsetOf (Nat.le_refl stop),
      List.drop_take_self, List.drop_eq_nil_of_le (by simp; omega)]

end SeqCursor.Text
