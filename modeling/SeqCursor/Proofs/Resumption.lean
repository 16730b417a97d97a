import SeqCursor.Proofs.Marks

/-!
# Resuming on what is left

What a cursor has left to read is a sequence of its own.  A cursor that is opened on it
answers as the first one does from there on, with every position moved by what had been
read before.  The two differ in sequence, length and offset, and the place before the
first element of one is a place within the other; so the cursors are compared at the
places of their plain ones, a request of both at a time.
-/

namespace SeqCursor

open Sequence

variable {S α : Type}

/-! ## Requests to both cursors -/

/-- The same answer, with the positions in it moved by `distance`. -/
def Answer.shift (distance : Int) : Answer S α → Answer S α
  | .position place => .position (place + distance)
  | .sought place? => .sought (place?.map (· + distance))
  | .failed (.endOfStream place) => .failed (.endOfStream (place + distance))
  | answer => answer

/-- The requests that depend on what is left to read only, up to the positions in their
answers. -/
def Operation.goesForward : Operation α → Bool
  | .position => true
  | .atEnd => true
  | .peek => true
  | .next => true
  | .demand => true
  | .accept _ => true
  | .nextMatches _ => true
  | .upTo _ => true
  | .upToEnd => true
  | .skipPast _ => true
  | .remaining => true
  | .visitRemaining => true
  | .skip move => decide (0 ≤ move)
  | .seekEnd => true
  | _ => false

/-- A request to a cursor and to another one that was opened on what it had left. -/
inductive JointRequest (α : Type) where
  /-- The same of both. -/
  | both (operation : Operation α)
  /-- A move to a position of the later cursor, and to the same place of the first. -/
  | seek (target : Int)
  /-- A move to where the later cursor was opened. -/
  | rewind
  deriving DecidableEq, Repr

namespace JointRequest

/-- What is asked of the cursor on the part. -/
def ofPart : JointRequest α → Operation α
  | both operation => operation
  | seek target => .seek target
  | rewind => .rewind

/-- What is asked of the cursor on the whole, which had read up to `start`. -/
def ofWhole (start : Int) : JointRequest α → Operation α
  | both operation => operation
  | seek target => .seek (target + start + 1)
  | rewind => .seek start

/-- The requests that stay within the part. -/
def admitted : JointRequest α → Bool
  | both operation => operation.goesForward
  | seek target => decide (Cursor.beforeFirst ≤ target)
  | rewind => true

/-- The answers are the same, up to the positions in them.  A rewind has nothing to
answer, where the move of the other cursor answers its target. -/
def Agree (start : Int) (request : JointRequest α) (whole part : Answer S α) : Prop :=
  match request with
  | rewind => whole = .sought (some start) ∧ part = .done
  | _ => whole = part.shift (start + 1)

end JointRequest

variable [Sequence S α]

/-- A cursor looks like one on the part of its sequence behind `start`. -/
structure Cursor.Alongside (start : Int) (whole part : Cursor S) : Prop where
  position : whole.position = part.position + start + 1
  atEnd : whole.atEnd = part.atEnd
  current : 0 ≤ part.position → whole.current = part.current

/-- The cursors look alike, answer the requests alike one after the other, and look
alike after each of them. -/
inductive Cursor.Lockstep [BEq α] (start : Int) :
    Cursor S → Cursor S → List (JointRequest α) → Prop where
  | nil {whole part : Cursor S} : whole.Alongside start part → Lockstep start whole part []
  | cons {whole part : Cursor S} {request : JointRequest α} {requests : List (JointRequest α)}
      {wholeReply partReply : Reply (Cursor S) (Answer S α)} :
      whole.Alongside start part →
      whole.perform (request.ofWhole start) = .ok wholeReply →
      part.perform request.ofPart = .ok partReply →
      request.Agree start wholeReply.answer partReply.answer →
      Lockstep start wholeReply.cursor partReply.cursor requests →
      Lockstep start whole part (request :: requests)

/-! ## Places within the part -/

namespace PlainCursor

/-- The plain cursor on the part behind `start`, at the same place of the whole. -/
structure Resumes (start : Int) (whole part : PlainCursor S) : Prop where
  start_ge : Cursor.beforeFirst ≤ start
  start_lt : start < whole.length
  elements : toList part.sequence = (toList whole.sequence).drop (start + 1).toNat
  position : whole.position = part.position + start + 1

namespace Resumes

variable {start : Int} {whole part : PlainCursor S}

theorem start_succ_nonneg (h : Resumes start whole part) : 0 ≤ start + 1 :=
  Int.add_le_add_right h.start_ge 1

/-- A move to a position of the part is a move to the same place of the whole. -/
theorem moveTo (h : Resumes start whole part) {target : Int} {place : Int}
    (hplace : place = target + start + 1) :
    Resumes start (whole.moveTo place) (part.moveTo target) :=
  ⟨h.start_ge, h.start_lt, h.elements, hplace⟩

variable [LawfulSequence S α]

theorem length_eq (h : Resumes start whole part) :
    (whole.length : Int) = part.length + start + 1 := by
  have hpart : part.length = whole.length - (start + 1).toNat := by
    rw [part.length_eq, whole.length_eq, h.elements, List.length_drop]
  have hlow := h.start_succ_nonneg
  have hhigh := h.start_lt
  omega

omit [LawfulSequence S α] in
theorem rest_eq (h : Resumes start whole part) (hpart : part.Admissible) :
    whole.rest = part.rest := by
  have hstart := h.start_succ_nonneg
  have hnext := hpart.position_succ_nonneg
  have hindex : (whole.position + 1).toNat = (start + 1).toNat + (part.position + 1).toNat := by
    rw [h.position]
    omega
  rw [rest, rest, h.elements, List.drop_drop, hindex]

theorem peek_eq (h : Resumes start whole part) (hwhole : whole.Admissible)
    (hpart : part.Admissible) : whole.peek = part.peek := by
  rw [← head?_rest hwhole, ← head?_rest hpart, h.rest_eq hpart]

theorem atEnd_eq (h : Resumes start whole part) : whole.atEnd = part.atEnd := by
  have hlength := h.length_eq
  have hposition := h.position
  simp only [atEnd, decide_eq_decide]
  omega

theorem current_eq (h : Resumes start whole part) (hfirst : 0 ≤ part.position) :
    whole.current = part.current := by
  have hstart := h.start_succ_nonneg
  have hposition := h.position
  have hindex : whole.position.toNat = (start + 1).toNat + part.position.toNat := by omega
  rw [PlainCursor.current_eq hfirst, PlainCursor.current_eq (by omega), h.elements,
    List.getElem?_drop, hindex]

theorem advance (h : Resumes start whole part) : Resumes start whole.advance part.advance := by
  rw [PlainCursor.advance, PlainCursor.advance, h.atEnd_eq]
  cases part.atEnd with
  | true => exact h
  | false =>
      apply h.moveTo
      rw [h.position]
      omega

theorem seekEnd (h : Resumes start whole part) :
    Resumes start (whole.moveTo whole.length) (part.moveTo part.length) :=
  h.moveTo h.length_eq

/-- A move is refused for both or for neither. -/
theorem seek (h : Resumes start whole part) {target : Int}
    (hlow : Cursor.beforeFirst ≤ target) :
    (whole.seek (target + start + 1)).answer =
        (part.seek target).answer.map (· + (start + 1)) ∧
      Resumes start (whole.seek (target + start + 1)).cursor (part.seek target).cursor := by
  have hstart := h.start_succ_nonneg
  have hlength := h.length_eq
  have hwithin : Cursor.beforeFirst ≤ target + start + 1 := by
    rw [Int.add_assoc]
    exact Int.le_trans hlow (Int.le_add_of_nonneg_right hstart)
  by_cases hrange : target ≤ part.length
  · have hwhole : target + start + 1 ≤ whole.length := by omega
    rw [seek_of_range ⟨hlow, hrange⟩, seek_of_range ⟨hwithin, hwhole⟩]
    exact ⟨congrArg some (Int.add_assoc _ _ _), h.moveTo rfl⟩
  · have hwhole : ¬ target + start + 1 ≤ whole.length := by omega
    rw [seek_of_not_range fun hboth => hrange hboth.2,
      seek_of_not_range fun hboth => hwhole hboth.2]
    exact ⟨rfl, h⟩

omit [LawfulSequence S α] in
/-- A move to where the part starts is never refused. -/
theorem rewind (h : Resumes start whole part) :
    (whole.seek start).answer = some start ∧
      Resumes start (whole.seek start).cursor (part.moveTo Cursor.beforeFirst) := by
  rw [seek_of_range ⟨h.start_ge, Int.le_of_lt h.start_lt⟩]
  refine ⟨rfl, h.moveTo ?_⟩
  simp only [Cursor.beforeFirst]
  omega

/-- A scan passes the same elements, and stops at the same place. -/
theorem scan (h : Resumes start whole part) (hwhole : whole.Admissible)
    (hpart : part.Admissible) (stops : α → Bool) :
    (whole.scan stops).1 = (part.scan stops).1 ∧
      Resumes start (whole.scan stops).2 (part.scan stops).2 := by
  have hlength := h.length_eq
  have hposition := h.position
  rw [scan_eq hwhole, scan_eq hpart, h.rest_eq hpart]
  refine ⟨rfl, h.moveTo ?_⟩
  rw [scanTarget, scanTarget, h.rest_eq hpart]
  omega

end Resumes

variable [LawfulSequence S α] {start : Int} {whole part : PlainCursor S}

theorem Resumes.skip {move : Int} (h : Resumes start whole part)
    (hwhole : whole.Admissible) (hpart : part.Admissible) (hmove : 0 ≤ move) :
    Resumes start (whole.skip move).cursor (part.skip move).cursor := by
  have hlength := h.length_eq
  have hposition := h.position
  rw [cursor_skip_of_nonneg hwhole hmove, cursor_skip_of_nonneg hpart hmove]
  apply h.moveTo
  omega

theorem Resumes.skipPast [BEq α] (h : Resumes start whole part)
    (hwhole : whole.Admissible) (hpart : part.Admissible) (value : α) :
    Resumes start ((whole.scan (· == value)).2.skip 1).cursor
      ((part.scan (· == value)).2.skip 1).cursor := by
  have hafter := (h.scan hwhole hpart (· == value)).2
  exact hafter.skip (admissible_scan hwhole _) (admissible_scan hpart _) (by decide)

/-! ## Requests, one and many -/

variable [BEq α]

/-- An operation that depends on what is left only is answered alike. -/
theorem exists_perform_forward (h : Resumes start whole part) (hwhole : whole.Admissible)
    (hpart : part.Admissible) {operation : Operation α}
    (hforward : operation.goesForward = true) :
    ∃ wholeReply partReply, whole.perform operation = .ok wholeReply ∧
      part.perform operation = .ok partReply ∧
      wholeReply.answer = partReply.answer.shift (start + 1) ∧
      Resumes start wholeReply.cursor partReply.cursor := by
  have hpeek := h.peek_eq hwhole hpart
  have hposition : whole.position = part.position + (start + 1) := by
    rw [h.position, Int.add_assoc]
  cases operation with
  | position => exact ⟨_, _, rfl, rfl, congrArg Answer.position hposition, h⟩
  | atEnd => exact ⟨_, _, rfl, rfl, congrArg Answer.decided h.atEnd_eq, h⟩
  | peek => exact ⟨_, _, rfl, rfl, congrArg Answer.element hpeek, h⟩
  | next => exact ⟨_, _, rfl, rfl, congrArg Answer.element hpeek, h.advance⟩
  | demand =>
      rw [perform, perform, hpeek]
      cases part.peek with
      | some element => exact ⟨_, _, rfl, rfl, rfl, h.advance⟩
      | none => exact ⟨_, _, rfl, rfl, congrArg (Answer.failed ∘ .endOfStream) hposition, h⟩
  | accept value =>
      rw [perform, perform, hpeek]
      cases part.peek.any (· == value) with
      | true => exact ⟨_, _, rfl, rfl, rfl, h.advance⟩
      | false => exact ⟨_, _, rfl, rfl, rfl, h⟩
  | nextMatches value =>
      rw [perform, perform, hpeek]
      exact ⟨_, _, rfl, rfl, rfl, h.advance⟩
  | upTo value =>
      obtain ⟨hfound, hafter⟩ := h.scan hwhole hpart (· == value)
      refine ⟨_, _, rfl, rfl, ?_, hafter⟩
      exact congrArg (fun found : Scan α => Answer.part (ofList found.passed.toList)) hfound
  | upToEnd =>
      obtain ⟨hfound, hafter⟩ := h.scan hwhole hpart fun _ => false
      refine ⟨_, _, rfl, rfl, ?_, hafter⟩
      exact congrArg (fun found : Scan α => Answer.part (ofList found.passed.toList)) hfound
  | skipPast value =>
      obtain ⟨hfound, hafter⟩ := h.scan hwhole hpart (· == value)
      rw [perform, perform]
      dsimp only
      rw [hfound]
      cases (part.scan (· == value)).1.stopper?.isSome with
      | true => exact ⟨_, _, rfl, rfl, rfl, h.skipPast hwhole hpart value⟩
      | false => exact ⟨_, _, rfl, rfl, rfl, hafter⟩
  | remaining =>
      rw [perform, perform, slice_rest, slice_rest, h.rest_eq hpart]
      exact ⟨_, _, rfl, rfl, rfl, h⟩
  | visitRemaining =>
      rw [perform, perform, slice_rest, slice_rest, h.rest_eq hpart]
      exact ⟨_, _, rfl, rfl, rfl, h⟩
  | skip move =>
      have hmove : 0 ≤ move := of_decide_eq_true hforward
      exact ⟨_, _, rfl, rfl, rfl, h.skip hwhole hpart hmove⟩
  | seekEnd => exact ⟨_, _, rfl, rfl, rfl, h.seekEnd⟩
  -- The others depend on the whole sequence, or on where the position is in it.
  | isEmpty => cases hforward
  | current => cases hforward
  | take count => cases hforward
  | contents => cases hforward
  | reversed => cases hforward
  | seek target => cases hforward
  | rewind => cases hforward

/-- A request of both is answered alike, and leaves both at the same place. -/
theorem exists_perform_joint (h : Resumes start whole part) (hwhole : whole.Admissible)
    (hpart : part.Admissible) {request : JointRequest α} (hadmitted : request.admitted = true) :
    ∃ wholeReply partReply, whole.perform (request.ofWhole start) = .ok wholeReply ∧
      part.perform request.ofPart = .ok partReply ∧
      request.Agree start wholeReply.answer partReply.answer ∧
      Resumes start wholeReply.cursor partReply.cursor := by
  cases request with
  | both operation => exact exists_perform_forward h hwhole hpart hadmitted
  | seek target =>
      obtain ⟨hanswer, hcursor⟩ := h.seek (of_decide_eq_true hadmitted)
      exact ⟨_, _, rfl, rfl, congrArg Answer.sought hanswer, hcursor⟩
  | rewind =>
      obtain ⟨hanswer, hcursor⟩ := h.rewind
      exact ⟨_, _, rfl, rfl, ⟨congrArg Answer.sought hanswer, rfl⟩, hcursor⟩

omit [BEq α] in
theorem alongside_locate (h : Resumes start whole part) (hwhole : whole.Admissible)
    (hpart : part.Admissible) : whole.locate.Alongside start part.locate := by
  constructor
  · exact h.position
  · rw [atEnd_locate hwhole, atEnd_locate hpart, h.atEnd_eq]
  · intro hfirst
    rw [current_locate, current_locate, h.current_eq hfirst]

/-- Requests of both keep them at the same place, one after the other. -/
theorem lockstep_locate (h : Resumes start whole part) (hwhole : whole.Admissible)
    (hpart : part.Admissible) (requests : List (JointRequest α))
    (hadmitted : ∀ request ∈ requests, request.admitted = true) :
    Cursor.Lockstep start whole.locate part.locate requests := by
  induction requests generalizing whole part with
  | nil => exact .nil (alongside_locate h hwhole hpart)
  | cons request requests ih =>
      obtain ⟨hhead, htail⟩ := List.forall_mem_cons.mp hadmitted
      obtain ⟨wholeReply, partReply, hwholeReply, hpartReply, hagree, hnext⟩ :=
        exists_perform_joint h hwhole hpart hhead
      exact .cons (alongside_locate h hwhole hpart) (perform_locate_of_eq_ok hwhole hwholeReply)
        (perform_locate_of_eq_ok hpart hpartReply) hagree
        (ih hnext (hwhole.of_perform hwholeReply) (hpart.of_perform hpartReply) htail)

end PlainCursor

namespace Cursor

variable [BEq α] [LawfulSequence S α]

/-- From a reachable cursor that has not passed the end, a cursor on what is left goes on
as the cursor itself does: whatever is asked of both, their answers, positions, ends and
current elements agree at every step, up to the distance between them. -/
theorem resuming_continues {c : Cursor S} (hc : c.Reachable) (hbefore : c.position < c.length) :
    ∃ rest, c.remaining = .ok rest ∧
      ∀ requests : List (JointRequest α), (∀ request ∈ requests, request.admitted = true) →
        Lockstep c.position c (on rest) requests := by
  have hwhole := hc.sound.admissible
  obtain ⟨rest, hrest, haddressable⟩ := hc.sound.remaining
  have hleft : rest = ofList c.plain.rest :=
    Except.ok.inj (hrest.symm.trans hc.sound.remaining_eq)
  have hstart : c.plain.Resumes c.position (PlainCursor.on rest) := by
    constructor
    · exact hwhole.beforeFirst_le
    · rw [hc.sound.coherent.length_eq] at hbefore
      exact hbefore
    · change toList rest = _
      rw [hleft, LawfulSequence.toList_ofList]
      rfl
    · change c.position = -1 + c.position + 1
      omega
  refine ⟨rest, hrest, ?_⟩
  intro requests hadmitted
  have hlockstep := PlainCursor.lockstep_locate hstart hwhole
    (PlainCursor.Admissible.on haddressable) requests hadmitted
  rwa [hc.sound.locate_plain, PlainCursor.locate_on] at hlockstep

/-- Behind a character of two bytes: reads to the end and past it, moves that are
refused or leave the part, and back to where it starts. -/
theorem resuming_continues_mixed_widths :
    (Cursor.mk "aé🦀b" 1 4 3).Reachable ∧ (1 : Int) < 4 ∧
    (∀ request ∈ [.both .peek, .both (.upTo 'b'), .both .demand, .seek 7, .seek 0,
      .both (.skip maxPosition), .rewind, .both (.accept '🦀'), .both .visitRemaining],
      JointRequest.admitted request = true) ∧
    ∃ rest, (Cursor.mk "aé🦀b" 1 4 3).remaining = .ok rest ∧
      Lockstep 1 (Cursor.mk "aé🦀b" 1 4 3) (on rest)
        [.both .peek, .both (.upTo 'b'), .both .demand, .seek 7, .seek 0,
          .both (.skip maxPosition), .rewind, .both (.accept '🦀'), .both .visitRemaining] := by
  have hreachable : (Cursor.mk "aé🦀b" 1 4 3).Reachable :=
    reachable_mixed_widths (by decide +kernel)
  have hadmitted : ∀ request ∈ [.both .peek, .both (.upTo 'b'), .both .demand, .seek 7, .seek 0,
      .both (.skip maxPosition), .rewind, .both (.accept '🦀'), .both .visitRemaining],
      JointRequest.admitted request = true := by
    decide
  obtain ⟨rest, hrest, hlockstep⟩ := resuming_continues hreachable (by decide)
  exact ⟨hreachable, by decide, hadmitted, rest, hrest, hlockstep _ hadmitted⟩

end Cursor

end SeqCursor
