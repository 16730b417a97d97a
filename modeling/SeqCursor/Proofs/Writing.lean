import Mathlib.Data.List.Basic
import SeqCursor.Proofs.Blocks
import SeqCursor.Sink

/-!
# Writing what was read

A sink that keeps what is put holds, after every write, what it held before and behind that
what was written.  Many elements are put one after the other, so it makes no difference how
a client groups them.

A sequence can therefore be written in parts.  The slices between cut points that do not
decrease, and the blocks read from the first element until the end, bring a sink to where
the whole brings it, whichever of them are empty or overshoot the end.
-/

namespace SeqCursor

open Sequence

variable {W S α : Type}

/-- A write to a sink: one element, or many in order. -/
inductive Write (α : Type) where
  | put (value : α)
  | putAll (values : List α)
  deriving DecidableEq, Repr

def Write.elements : Write α → List α
  | .put value => [value]
  | .putAll values => values

/-- The slices from each cut point to the next, the first of them from `start` on. -/
def Sequence.pieces [Sequence S α] (s : S) (start : Nat) : List Nat → Except Fault (List S)
  | [] => .ok []
  | stop :: stops => do
      let piece ← slice s start stop
      let later ← pieces s stop stops
      return piece :: later

namespace Sink

/-- The sink that stores an element by `put`, and many as sinks do by default. -/
@[reducible]
def ofPut (put : W → α → W) : Sink W α where
  put := put

variable [Sink W α]

def write (sink : W) : Write α → W
  | .put value => put sink value
  | .putAll values => putAll sink values

/-- Writes the elements of sequences, one sequence after the other. -/
def putEach [Sequence S α] (sink : W) (parts : List S) : W :=
  parts.foldl (fun sink part => putAll sink (toList part)) sink

/-- A sink that takes many elements one after the other, and of which `held` is the content:
what is put is added at its end. -/
structure Keeps (held : W → List α) : Prop where
  held_put : ∀ sink value, held (put sink value) = held sink ++ [value]
  putAll_eq : ∀ (sink : W) (values : List α), putAll sink values = values.foldl put sink

/-- What any mix of writes makes of a sink with the content `held`. -/
structure Records (held : W → List α) : Prop where
  /-- From the start and through every write, the content is the one before, followed by
  the elements of the write. -/
  traced : ∀ (sink : W) (writes : List (Write α)),
    (writes.scanl write sink).map held =
      writes.scanl (fun content request => content ++ request.elements) (held sink)
  /-- Only the elements matter and their order, not which write they came with. -/
  grouped : ∀ (sink : W) (writes : List (Write α)),
    writes.foldl write sink = putAll sink (writes.flatMap Write.elements)
  split : ∀ (sink : W) (front back : List α),
    putAll sink (front ++ back) = putAll (putAll sink front) back
  single : ∀ (sink : W) (values : List α),
    putAll sink values = (values.map Write.put).foldl write sink

/-- Written one after the other, the parts are to a sink what `whole` is. -/
structure Reproduces [Sequence S α] (held : W → List α) (parts : List S) (whole : S) :
    Prop where
  as_whole : ∀ sink : W, putEach sink parts = putAll sink (toList whole)
  appended : ∀ sink : W, held (putEach sink parts) = held sink ++ toList whole
  /-- A sink that was empty then holds `whole`, element by element. -/
  restored : ∀ sink : W, held sink = [] → ofList (held (putEach sink parts)) = whole

omit [Sink W α] in
theorem keeps_ofPut {put : W → α → W} {held : W → List α}
    (hput : ∀ sink value, held (put sink value) = held sink ++ [value]) :
    letI := ofPut put
    Keeps held :=
  letI := ofPut put
  ⟨hput, fun _ _ => rfl⟩

namespace Keeps

variable {held : W → List α}

theorem held_putAll (hsink : Keeps held) (sink : W) (values : List α) :
    held (putAll sink values) = held sink ++ values := by
  rw [hsink.putAll_eq]
  induction values generalizing sink with
  | nil => simp
  | cons value values ih => simp [ih, hsink.held_put]

theorem putAll_append (hsink : Keeps held) (sink : W) (front back : List α) :
    putAll sink (front ++ back) = putAll (putAll sink front) back := by
  simp only [hsink.putAll_eq, List.foldl_append]

theorem write_eq_putAll (hsink : Keeps held) (sink : W) (request : Write α) :
    write sink request = putAll sink request.elements := by
  cases request with
  | put value => simp [write, Write.elements, hsink.putAll_eq]
  | putAll values => rfl

theorem held_write (hsink : Keeps held) (sink : W) (request : Write α) :
    held (write sink request) = held sink ++ request.elements := by
  rw [hsink.write_eq_putAll, hsink.held_putAll]

theorem map_held_scanl (hsink : Keeps held) (sink : W) (writes : List (Write α)) :
    (writes.scanl write sink).map held =
      writes.scanl (fun content request => content ++ request.elements) (held sink) := by
  induction writes generalizing sink with
  | nil => simp
  | cons request writes ih => simp [ih, hsink.held_write]

/-- Putting list after list is putting their elements. -/
theorem foldl_putAll {β : Type} (hsink : Keeps held) (elements : β → List α) (sink : W)
    (items : List β) :
    items.foldl (fun sink item => putAll sink (elements item)) sink =
      putAll sink (items.flatMap elements) := by
  simp only [hsink.putAll_eq, List.foldl_flatMap]

theorem foldl_write (hsink : Keeps held) (sink : W) (writes : List (Write α)) :
    writes.foldl write sink = putAll sink (writes.flatMap Write.elements) := by
  have hwrite : (write : W → Write α → W) = fun sink request => putAll sink request.elements := by
    funext sink request
    exact hsink.write_eq_putAll sink request
  rw [hwrite, hsink.foldl_putAll]

theorem records (hsink : Keeps held) : Records held where
  traced := hsink.map_held_scanl
  grouped := hsink.foldl_write
  split := hsink.putAll_append
  single sink values := by
    rw [hsink.foldl_write, List.flatMap_map]
    simp [Write.elements]

variable [Sequence S α] [LawfulSequence S α]

/-- Parts reproduce what they hold together. -/
theorem reproduces (hsink : Keeps held) {parts : List S} {whole : S}
    (hwhole : parts.flatMap toList = toList whole) : Reproduces held parts whole := by
  have heach : ∀ sink : W, putEach sink parts = putAll sink (toList whole) := by
    intro sink
    rw [putEach, hsink.foldl_putAll, hwhole]
  have happended : ∀ sink : W, held (putEach sink parts) = held sink ++ toList whole := by
    intro sink
    rw [heach, hsink.held_putAll]
  refine ⟨heach, happended, ?_⟩
  intro sink hempty
  rw [happended, hempty, List.nil_append, LawfulSequence.ofList_toList]

end Keeps

example : putEach #['<'] ["é", "", "🦀b"] = #['<', 'é', '🦀', 'b'] := by
  cbv

end Sink

/-! ## Pieces between cut points -/

theorem drop_take_append_drop_take (elements : List α) {i j k : Nat} (hij : i ≤ j)
    (hjk : j ≤ k) :
    (elements.take j).drop i ++ (elements.take k).drop j = (elements.take k).drop i := by
  calc
    (elements.take j).drop i ++ (elements.take k).drop j =
        ((elements.take k).drop i).take (j - i) ++
          ((elements.take k).drop i).drop (j - i) := by
      rw [← List.drop_take, List.take_take, Nat.min_eq_left hjk, List.drop_drop,
        Nat.add_sub_cancel' hij]
    _ = (elements.take k).drop i := List.take_append_drop _ _

namespace Sequence

variable [Sequence S α]

theorem pieces_cons {s piece : S} {later : List S} {start stop : Nat} {stops : List Nat}
    (hpiece : slice s start stop = .ok piece) (hlater : pieces s stop stops = .ok later) :
    pieces s start (stop :: stops) = .ok (piece :: later) := by
  rw [pieces, hpiece]
  change (pieces s stop stops >>= _) = _
  rw [hlater]
  rfl

variable [LawfulSequence S α]

/-- Between cut points that do not decrease, the pieces hold what lies between the first
and the last of them. -/
theorem exists_pieces (s : S) {start : Nat} {stops : List Nat}
    (hcuts : (start :: stops).Pairwise (· ≤ ·)) :
    ∃ parts, pieces s start stops = .ok parts ∧
      parts.flatMap toList = ((toList s).take (stops.getLastD start)).drop start := by
  -- The first piece stops where the pieces behind it start.
  induction stops generalizing start with
  | nil =>
      refine ⟨[], rfl, ?_⟩
      simp
  | cons stop stops ih =>
      obtain ⟨hfirst, hrest⟩ := List.pairwise_cons.mp hcuts
      obtain ⟨later, hlater, hwhole⟩ := ih hrest
      have hstart : start ≤ stop := hfirst stop List.mem_cons_self
      have hlast : stop ≤ stops.getLastD stop := by
        rcases List.mem_cons.mp List.getLastD_mem_cons with hsame | hbehind
        · exact Nat.le_of_eq hsame.symm
        · exact (List.pairwise_cons.mp hrest).1 _ hbehind
      refine ⟨_, pieces_cons (LawfulSequence.slice_eq s start stop) hlater, ?_⟩
      rw [List.flatMap_cons, LawfulSequence.toList_ofList, hwhole, List.getLastD_cons,
        drop_take_append_drop_take _ hstart hlast]

end Sequence

/-! ## Blocks from the first element on -/

namespace Cursor

variable [Sequence S α] [LawfulSequence S α] {s : S}

/-- Blocks from the first element on hold as many elements as their counts add up to, and
reach the end if there are no more than that. -/
theorem exists_takeEach_on (hs : Addressable s) (counts : List Nat) :
    ∃ blocks, (on s).takeEach counts = .ok blocks ∧
      blocks.answer.flatMap toList = (toList s).take counts.sum ∧
      (blocks.cursor.atEnd = true ↔ counts ≠ [] ∧ Sequence.length s ≤ counts.sum) := by
  have hfresh : (on s).Sound := Sound.on hs
  have huntaken : (on s).plain.untaken = toList s := by
    simp [PlainCursor.untaken, on, plain, beforeFirst]
  cases counts with
  | nil =>
      refine ⟨⟨[], on s, []⟩, rfl, by simp, ?_⟩
      simp [atEnd, on, beforeFirst]
  | cons count counts =>
      obtain ⟨blocks, hblocks, hwhole, hlast⟩ := hfresh.exists_takeEach count counts
      have hend := PlainCursor.atEnd_behindBlock_iff hfresh.admissible (count :: counts).sum
      rw [huntaken, ← LawfulSequence.length_eq] at hend
      refine ⟨blocks, hblocks, ?_, ?_⟩
      · rw [hwhole, huntaken]
      · rw [hlast, PlainCursor.atEnd_locate
          (PlainCursor.admissible_behindBlock hfresh.admissible _), hend]
        simp

end Cursor

/-- A client puts elements one at a time or many at once, and the sink adds exactly those to
what it held.  So a sequence is in a sink as a whole when it has been written in parts:
slices between any cut points that do not decrease, or blocks read from the first element
until the end. -/
theorem writing_reproduces_reading [Sequence S α] [LawfulSequence S α] {put : W → α → W}
    {held : W → List α} (hput : ∀ sink value, held (put sink value) = held sink ++ [value]) :
    letI := Sink.ofPut put
    Sink.Records held ∧
    (∀ (s : S) (start : Nat) (stops : List Nat), (start :: stops).Pairwise (· ≤ ·) →
      ∃ parts whole, pieces s start stops = .ok parts ∧
        slice s start (stops.getLastD start) = .ok whole ∧
        Sink.Reproduces held parts whole) ∧
    (∀ s : S, Addressable s → ∀ counts : List Nat,
      ∃ blocks, (Cursor.on s).takeEach counts = .ok blocks ∧
        (blocks.cursor.atEnd = true ↔ counts ≠ [] ∧ Sequence.length s ≤ counts.sum) ∧
        (blocks.cursor.atEnd = true → Sink.Reproduces held blocks.answer s)) := by
  let := Sink.ofPut put
  have hsink : Sink.Keeps held := Sink.keeps_ofPut hput
  refine ⟨hsink.records, ?_, ?_⟩
  · intro s start stops hcuts
    obtain ⟨parts, hparts, hwhole⟩ := exists_pieces s hcuts
    refine ⟨parts, _, hparts, LawfulSequence.slice_eq s start _, hsink.reproduces ?_⟩
    rw [hwhole, LawfulSequence.toList_ofList]
  · intro s hs counts
    obtain ⟨blocks, hblocks, hwhole, hend⟩ := Cursor.exists_takeEach_on hs counts
    refine ⟨blocks, hblocks, hend, ?_⟩
    intro hlast
    have hall : (toList s).length ≤ counts.sum := by
      rw [← LawfulSequence.length_eq]
      exact (hend.mp hlast).2
    apply hsink.reproduces
    rw [hwhole, List.take_of_length_le hall]

/-- Characters of two and four bytes between cut points, two of which coincide and one of
which lies behind every text; and the whole text in blocks, one of them empty.  Both are
written to a text that is not empty. -/
theorem writing_reproduces_reading_mixed_widths :
    (∀ (sink : String) (value : Char), (sink.push value).toList = sink.toList ++ [value]) ∧
    [1, 1, 3, maxIndex].Pairwise (· ≤ ·) ∧ Addressable "aé🦀b" ∧
    letI := Sink.ofPut String.push
    (∃ parts, pieces "aé🦀b" 1 [1, 3, maxIndex] = .ok parts ∧
      Sink.putEach "<" parts = "<é🦀b") ∧
    ∃ blocks, (Cursor.on "aé🦀b").takeEach [2, 0, maxIndex] = .ok blocks ∧
      blocks.cursor.atEnd = true ∧ Sink.putEach "<" blocks.answer = "<aé🦀b" := by
  have hput : ∀ (sink : String) (value : Char),
      (sink.push value).toList = sink.toList ++ [value] := fun _ value => String.toList_push value
  have hcuts : [1, 1, 3, maxIndex].Pairwise (· ≤ ·) := by decide +kernel
  have htext : Addressable "aé🦀b" := Text.addressable_mixed_widths
  let := Sink.ofPut String.push
  obtain ⟨-, hpieces, hblocks⟩ := writing_reproduces_reading (S := String) hput
  obtain ⟨parts, whole, hparts, hwhole, hreproduces⟩ := hpieces "aé🦀b" 1 [1, 3, maxIndex] hcuts
  obtain rfl : "é🦀b" = whole := Except.ok.inj hwhole
  obtain ⟨blocks, hread, hend, hrestores⟩ := hblocks "aé🦀b" htext [2, 0, maxIndex]
  have hlast : blocks.cursor.atEnd = true := hend.mpr (by decide +kernel)
  refine ⟨hput, hcuts, htext, ⟨parts, hparts, ?_⟩, blocks, hread, hlast, ?_⟩
  · exact String.toList_inj.mp (hreproduces.appended "<")
  · exact String.toList_inj.mp ((hrestores hlast).appended "<")

end SeqCursor
