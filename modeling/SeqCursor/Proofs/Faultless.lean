import SeqCursor.Proofs.Addresses
import SeqCursor.Proofs.SessionInvariant
import SeqCursor.Proofs.Slices

/-!
# Nothing faults

A fault marks a sum out of the machine's ranges, a conversion of a negative position
or a cut that storage does not admit.  None comes up: a position is at most the
length, which is below the largest one; an offset is within storage; and the ends of a
cut are resolved and ordered before storage is cut.  Two sums can leave the machine's
ranges, that of a relative move and that of a block, and these are tested where they
are made.
-/

namespace SeqCursor

open Sequence

variable {S α : Type} [Sequence S α]

/-! ## Cuts -/

/-- Storage of text can be cut from byte `first` to byte `last`. -/
structure Text.Cuttable (s : String) (first last : Nat) : Prop where
  ordered : first ≤ last
  within : last ≤ s.utf8ByteSize
  first_boundary : String.Pos.Raw.IsValid s ⟨first⟩
  last_boundary : String.Pos.Raw.IsValid s ⟨last⟩

/-- Storage of an array can be cut from index `first` to index `last`. -/
structure Indexed.Cuttable (xs : Array α) (first last : Nat) : Prop where
  ordered : first ≤ last
  within : last ≤ xs.size

/-- A cut is made only where text can be cut. -/
theorem Text.cuttable_of_cut_eq_ok {s part : String} {first last : Nat}
    (hcut : cut s first last = .ok part) : Cuttable s first last := by
  rw [cut] at hcut
  split at hcut
  next start stop hstart hstop =>
    rw [pos?_eq_some_iff] at hstart hstop
    have hfirst : String.Pos.Raw.IsValid s ⟨first⟩ := hstart ▸ start.isValid
    have hlast : String.Pos.Raw.IsValid s ⟨last⟩ := hstop ▸ stop.isValid
    split at hcut
    next hle =>
      rw [String.Pos.le_iff, hstart, hstop] at hle
      exact ⟨hle, hlast.le_rawEndPos, hfirst, hlast⟩
    next => cases hcut
  next => cases hcut

theorem Indexed.cuttable_of_cut_eq_ok {xs part : Array α} {first last : Nat}
    (hcut : cut xs first last = .ok part) : Cuttable xs first last := by
  rw [cut] at hcut
  split at hcut
  next hrange => exact ⟨hrange.1, hrange.2⟩
  next => cases hcut

/-! ## Sequences -/

/-- A sequence answers for any range, any chain of ranges and any offset. -/
structure Sequence.Serves (s : S) : Prop where
  slice : ∀ start stop, ∃ part, Sequence.slice s start stop = .ok part
  sliceWithin : ∀ ranges, ∃ part, Sequence.sliceWithin s ranges = .ok part
  atOffset : ∀ offset, ∃ found?, Sequence.atOffset s offset = .ok found?

variable [LawfulSequence S α]

theorem Sequence.exists_sliceWithin (s : S) (ranges : List (Nat × Nat)) :
    ∃ part, sliceWithin s ranges = .ok part := by
  cases ranges with
  | nil => exact ⟨s, rfl⟩
  | cons range ranges =>
      rw [sliceWithin_eq]
      exact ⟨_, LawfulSequence.slice_eq s _ _⟩

omit [LawfulSequence S α] in
theorem Sequence.Addresses.exists_atOffset {s : S} {storage : Nat} (hs : Addresses s storage)
    (offset : Nat) : ∃ found?, atOffset s offset = .ok found? := by
  by_cases hnamed : ∃ i, i < length s ∧ offset = offsetOf s i
  · obtain ⟨i, hi, rfl⟩ := hnamed
    obtain ⟨element, -, hfound⟩ := hs.forward i hi
    exact ⟨_, hfound⟩
  · refine ⟨none, (hs.forward_eq_none_iff offset).mpr ?_⟩
    intro i hi hoffset
    exact hnamed ⟨i, hi, hoffset⟩

theorem Sequence.Addresses.serves {s : S} {storage : Nat} (hs : Addresses s storage) :
    Serves s :=
  ⟨fun start stop => ⟨_, LawfulSequence.slice_eq s start stop⟩, exists_sliceWithin s,
    hs.exists_atOffset⟩

/-! ## Cursors -/

/-- No operation of a cursor faults.  The positions and offsets that it counts with
are within the machine's ranges, and the two sums that may not be lead to the end. -/
structure Cursor.Faultless [BEq α] (c : Cursor S) : Prop where
  length_lt : (c.length : Int) < maxPosition
  beforeFirst_le : beforeFirst ≤ c.position
  position_le : c.position ≤ c.length
  /-- Behind every position of the cursor there is another, and it is an index. -/
  succ : ∀ position, beforeFirst ≤ position → position ≤ c.length →
    Position.succ position = .ok (position + 1) ∧
      Position.toIndex (position + 1) = .ok (position + 1).toNat
  /-- The offset behind the element ahead is in range. -/
  ahead : ∃ found?, c.ahead = .ok found? ∧
    ∀ element following, found? = some (element, following) → following ≤ maxIndex
  perform : ∀ operation : Operation α, ∃ reply, c.perform operation = .ok reply
  skip_out_of_range : ∀ move,
    ¬ (minPosition ≤ c.position + move ∧ c.position + move ≤ maxPosition) →
      ∃ reply, c.skip move = .ok reply ∧ reply.cursor.position = c.length
  take_out_of_range : ∀ count, maxIndex < c.position.toNat + count →
    ∃ reply, c.take count = .ok reply ∧ reply.cursor.position = c.length

-- The checks are not idle: a cursor outside of its sequence faults.
example : (Cursor.mk "a" maxPosition 1 0).next = .error (.positionOverflow maxPosition) := rfl

namespace Cursor.Sound

variable {c : Cursor S}

omit [LawfulSequence S α] in
theorem length_lt (hc : c.Sound) : (c.length : Int) < maxPosition := by
  rw [hc.coherent.length_eq]
  exact hc.addressable.length_lt

theorem exists_ahead (hc : c.Sound) : ∃ found?, c.ahead = .ok found? ∧
    ∀ element following, found? = some (element, following) → following ≤ maxIndex := by
  have hahead := PlainCursor.ahead_locate hc.admissible
  rw [hc.locate_plain] at hahead
  refine ⟨_, hahead, ?_⟩
  intro element following hfound
  obtain ⟨_, -, hpair⟩ := Option.map_eq_some_iff.mp hfound
  obtain ⟨rfl, rfl⟩ := Prod.mk.inj hpair
  exact hc.addressable.offsetOf_le _

theorem exists_skip_of_overflow (hc : c.Sound) {move : Int}
    (hsum : ¬ (minPosition ≤ c.position + move ∧ c.position + move ≤ maxPosition)) :
    ∃ reply, c.skip move = .ok reply ∧ reply.cursor.position = c.length := by
  have hskip := PlainCursor.skip_locate hc.admissible move
  have hnone : Position.add? c.plain.position move = none := if_neg hsum
  rw [hc.locate_plain, PlainCursor.skip, hnone] at hskip
  exact ⟨_, hskip, congrArg Nat.cast hc.coherent.length_eq.symm⟩

theorem exists_take_of_overflow (hc : c.Sound) {count : Nat}
    (hsum : maxIndex < c.position.toNat + count) :
    ∃ reply, c.take count = .ok reply ∧ reply.cursor.position = c.length := by
  have htake := PlainCursor.take_locate hc.admissible count
  rw [hc.locate_plain, LawfulSequence.slice_eq] at htake
  refine ⟨_, htake, ?_⟩
  have hlength : c.plain.length < maxIndex := PlainCursor.length_lt_maxIndex hc.addressable
  have hsame : c.plain.length = c.length := hc.coherent.length_eq.symm
  change ((min (c.position.toNat + count) c.plain.length : Nat) : Int) = c.length
  omega

theorem faultless [BEq α] (hc : c.Sound) : c.Faultless := by
  have hlength := hc.length_lt
  have hlow := hc.coherent.beforeFirst_le
  have hhigh := hc.coherent.position_le
  rw [← hc.coherent.length_eq] at hhigh
  constructor
  · exact hlength
  · exact hlow
  · exact hhigh
  · intro position hfirst hlast
    have hindex : 0 ≤ position + 1 := Int.add_le_add_right hfirst 1
    exact ⟨Position.succ_of_lt (Int.lt_of_le_of_lt hlast hlength),
      Position.toIndex_of_nonneg hindex⟩
  · exact hc.exists_ahead
  · intro operation
    obtain ⟨reply, hreply, -⟩ := hc.perform operation
    exact ⟨reply, hreply⟩
  · intro move hsum
    exact hc.exists_skip_of_overflow hsum
  · intro count hsum
    exact hc.exists_take_of_overflow hsum

end Cursor.Sound

/-- No session, on text or on an array, comes to a fault but by naming a slot that is
not in use: whatever the operations and their arguments, every cursor goes on to answer
every operation.  Nor does a sequence come to a fault by itself, at any index, range or
offset, and it cuts its storage in order, within bounds and at elements' ends. -/
theorem nothing_faults :
    (∀ (s : String) (steps : List (Step Char)),
      (s.length : Int) < maxPosition → s.utf8ByteSize ≤ maxIndex →
        Session.RunDelivers { input := s } steps fun effects =>
          ∀ effect ∈ effects, ∀ c ∈ effect.session.cursors, c.Faultless) ∧
    (∀ {β : Type} [BEq β] (xs : Array β) (steps : List (Step β)),
      (xs.size : Int) < maxPosition →
        Session.RunDelivers { input := xs } steps fun effects =>
          ∀ effect ∈ effects, ∀ c ∈ effect.session.cursors, c.Faultless) ∧
    (∀ s : String, s.utf8ByteSize ≤ maxIndex → Serves s ∧ ∀ start stop,
      Text.slice s start stop =
        Text.cut s (min (Text.offsetOf s start) (Text.offsetOf s stop)) (Text.offsetOf s stop) ∧
      Text.Cuttable s (min (Text.offsetOf s start) (Text.offsetOf s stop))
        (Text.offsetOf s stop)) ∧
    (∀ {β : Type} (xs : Array β), xs.size ≤ maxIndex → Serves xs ∧ ∀ start stop,
      Indexed.slice xs start stop =
        Indexed.cut xs (Indexed.clampRange start stop xs.size).1
          (Indexed.clampRange start stop xs.size).2 ∧
      Indexed.Cuttable xs (Indexed.clampRange start stop xs.size).1
        (Indexed.clampRange start stop xs.size).2) := by
  refine ⟨?_, ?_, ?_, ?_⟩
  · intro s steps hlength hstorage
    have hstart := Session.sound_start (Text.addressable hlength hstorage)
    apply (Session.delivers_run hstart steps).imp
    intro effects hsound effect heffect c hc
    exact ((hsound effect heffect).cursors c hc).faultless
  · intro β _ xs steps hsize
    have hstart := Session.sound_start (Indexed.addressable hsize)
    apply (Session.delivers_run hstart steps).imp
    intro effects hsound effect heffect c hc
    exact ((hsound effect heffect).cursors c hc).faultless
  · intro s hstorage
    refine ⟨(Text.addresses hstorage).serves, ?_⟩
    intro start stop
    exact ⟨rfl, Text.cuttable_of_cut_eq_ok (Text.slice_eq s start stop)⟩
  · intro β xs hsize
    refine ⟨(Indexed.addresses hsize).serves, ?_⟩
    intro start stop
    exact ⟨rfl, Indexed.cuttable_of_cut_eq_ok (Indexed.slice_eq xs start stop)⟩

/-- Moves, reads and ranges at the ends of the machine's ranges, from before the first
element and from the end, over characters of different widths and over an array. -/
theorem nothing_faults_at_extremes :
    ("aé🦀b".length : Int) < maxPosition ∧ "aé🦀b".utf8ByteSize ≤ maxIndex ∧
    (Session.run { input := "aé🦀b" }
      [.on .input, .act 0 (.skip minPosition), .act 0 .remaining, .act 0 .seekEnd,
        .act 0 (.skip maxPosition), .act 0 (.seek maxPosition), .act 0 .rewind,
        .act 0 (.take maxIndex), .onRange (.contents 0) maxIndex 1]).isOk ∧
    (Session.RunDelivers { input := "aé🦀b" }
      [.on .input, .act 0 (.skip minPosition), .act 0 .remaining, .act 0 .seekEnd,
        .act 0 (.skip maxPosition), .act 0 (.seek maxPosition), .act 0 .rewind,
        .act 0 (.take maxIndex), .onRange (.contents 0) maxIndex 1] fun effects =>
      ∀ effect ∈ effects, ∀ c ∈ effect.session.cursors, c.Faultless) ∧
    ((#[3, 1, 2] : Array Nat).size : Int) < maxPosition ∧
    (Session.run { input := #[3, 1, 2] }
      [.onCheckedRange .input 1 maxIndex, .onRange .input 1 maxIndex,
        .act 0 (.skipPast 2), .act 0 (.skip (-1))]).isOk ∧
    (Session.RunDelivers { input := #[3, 1, 2] }
      [.onCheckedRange .input 1 maxIndex, .onRange .input 1 maxIndex,
        .act 0 (.skipPast 2), .act 0 (.skip (-1))] fun effects =>
      ∀ effect ∈ effects, ∀ c ∈ effect.session.cursors, c.Faultless) ∧
    Serves "aé🦀b" ∧
    Text.slice "aé🦀b" maxIndex 1 = Text.cut "aé🦀b" 1 1 ∧ Text.Cuttable "aé🦀b" 1 1 ∧
    (#[3, 1, 2] : Array Nat).size ≤ maxIndex ∧ Serves #[3, 1, 2] ∧
    Indexed.slice #[3, 1, 2] 1 maxIndex = Indexed.cut #[3, 1, 2] 1 3 ∧
    Indexed.Cuttable #[3, 1, 2] 1 3 := by
  have htext := nothing_faults.2.2.1 "aé🦀b" (by decide)
  have harray := nothing_faults.2.2.2 #[3, 1, 2] (by decide)
  exact ⟨by decide, by decide, by decide +kernel,
    nothing_faults.1 "aé🦀b" _ (by decide) (by decide), by decide, by decide +kernel,
    nothing_faults.2.1 #[3, 1, 2] _ (by decide),
    htext.1, (htext.2 maxIndex 1).1, (htext.2 maxIndex 1).2, by decide,
    harray.1, (harray.2 1 maxIndex).1, (harray.2 1 maxIndex).2⟩

end SeqCursor
