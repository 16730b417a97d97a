import SeqCursor.Proofs.Marks

/-!
# Progress

Reading on never leads back, and from every place but the end it leads on; at the end
nothing happens any more.  A comparison and a demanded read lead on where they answer
that they did.
-/

namespace SeqCursor

open Sequence

variable {S α : Type}

/-! ## Requests that lead on -/

/-- The requests that never lead back. -/
def Operation.onward : Operation α → Bool
  | .seek _ => false
  | .rewind => false
  | .skip move => decide (0 ≤ move)
  | _ => true

/-- The requests that lead on from every place but the end. -/
def Operation.advancing : Operation α → Bool
  | .next => true
  | .nextMatches _ => true
  | .upTo _ => true
  | .upToEnd => true
  | .skipPast _ => true
  | .take count => decide (1 ≤ count)
  | .skip move => decide (1 ≤ move)
  | .seekEnd => true
  | _ => false

theorem Operation.onward_of_advancing {operation : Operation α}
    (hadvancing : operation.advancing = true) : operation.onward = true := by
  cases operation with
  | skip move =>
      have hmove : 1 ≤ move := of_decide_eq_true hadvancing
      exact decide_eq_true (by omega)
  | seek target => cases hadvancing
  | rewind => cases hadvancing
  | _ => rfl

variable [Sequence S α]

/-- Where requests lead a cursor. -/
structure Cursor.Progresses [BEq α] (c : Cursor S) : Prop where
  onward : ∀ operation : Operation α, operation.onward = true →
    ∃ reply, c.perform operation = .ok reply ∧ c.position ≤ reply.cursor.position
  advancing : c.atEnd = false → ∀ operation : Operation α, operation.advancing = true →
    ∃ reply, c.perform operation = .ok reply ∧ c.position < reply.cursor.position
  accept : ∀ value, ∃ reply, c.accept value = .ok reply ∧
    (c.position < reply.cursor.position ↔ reply.answer = true)
  demand : ∃ reply, c.demand = .ok reply ∧
    (c.position < reply.cursor.position ↔ ∃ element, reply.answer = .ok element)
  atEnd : c.atEnd = true → ∀ operation : Operation α, operation.onward = true →
    ∃ reply, c.perform operation = .ok reply ∧ reply.cursor = c

namespace PlainCursor

variable {c d e : PlainCursor S}

/-- A place that is not before another one, and behind it unless that is the end. -/
structure LeadsTo (c d : PlainCursor S) : Prop where
  position_le : c.position ≤ d.position
  position_lt : c.atEnd = false → c.position < d.position

theorem LeadsTo.trans_le (hfirst : c.LeadsTo d) (hsecond : d.position ≤ e.position) :
    c.LeadsTo e := by
  constructor
  · exact Int.le_trans hfirst.position_le hsecond
  · intro hend
    exact Int.lt_of_lt_of_le (hfirst.position_lt hend) hsecond

theorem leadsTo_moveTo (hc : c.Admissible) {target : Int}
    (htarget : min (c.position + 1) c.length ≤ target) : c.LeadsTo (c.moveTo target) := by
  have hbound := hc.position_le
  constructor
  · change c.position ≤ target
    omega
  · intro hend
    have hbefore := position_lt_length hend
    change c.position < target
    omega

theorem leadsTo_advance (c : PlainCursor S) : c.LeadsTo c.advance := by
  cases hend : c.atEnd with
  | true =>
      rw [advance, hend]
      exact ⟨Int.le_refl _, fun hbefore => by rw [hend] at hbefore; cases hbefore⟩
  | false =>
      rw [advance_of_not_atEnd hend]
      have hstep : c.position < c.position + 1 := Int.lt_succ c.position
      exact ⟨Int.le_of_lt hstep, fun _ => hstep⟩

theorem leadsTo_seekEnd (hc : c.Admissible) : c.LeadsTo (c.moveTo c.length) :=
  leadsTo_moveTo hc (Int.min_le_right _ _)

theorem position_le_skip (hc : c.Admissible) {move : Int} (hmove : 0 ≤ move) :
    c.position ≤ (c.skip move).cursor.position := by
  have hbound := hc.position_le
  rw [cursor_skip_of_nonneg hc hmove]
  change c.position ≤ min (c.position + move) c.length
  omega

theorem leadsTo_skip (hc : c.Admissible) {move : Int} (hmove : 1 ≤ move) :
    c.LeadsTo (c.skip move).cursor := by
  rw [cursor_skip_of_nonneg hc (by omega)]
  apply leadsTo_moveTo hc
  omega

variable [LawfulSequence S α]

theorem leadsTo_scan (hc : c.Admissible) (stops : α → Bool) : c.LeadsTo (c.scan stops).2 := by
  rw [scan_eq hc]
  apply leadsTo_moveTo hc
  rw [scanTarget]
  omega

theorem position_lt_advance (hc : c.Admissible) {element : α} (hpeek : c.peek = some element) :
    c.position < c.advance.position := by
  apply (leadsTo_advance c).position_lt
  cases hend : c.atEnd with
  | false => rfl
  | true =>
      rw [peek_eq_none hc (Int.le_add_one (length_le_of_atEnd hend))] at hpeek
      cases hpeek

variable [BEq α]

theorem exists_perform_onward (hc : c.Admissible) {operation : Operation α}
    (honward : operation.onward = true) :
    ∃ reply, c.perform operation = .ok reply ∧ c.position ≤ reply.cursor.position ∧
      (operation.advancing = true → c.LeadsTo reply.cursor) := by
  have hle : c.position ≤ c.position := Int.le_refl _
  have hadvance := leadsTo_advance c
  have hscan := leadsTo_scan hc
  have hend := leadsTo_seekEnd hc
  cases operation with
  | position => exact ⟨_, rfl, hle, Bool.noConfusion⟩
  | isEmpty => exact ⟨_, rfl, hle, Bool.noConfusion⟩
  | atEnd => exact ⟨_, rfl, hle, Bool.noConfusion⟩
  | peek => exact ⟨_, rfl, hle, Bool.noConfusion⟩
  | current => exact ⟨_, rfl, hle, Bool.noConfusion⟩
  | next => exact ⟨_, rfl, hadvance.position_le, fun _ => hadvance⟩
  | demand =>
      rw [perform]
      cases c.peek with
      | some element => exact ⟨_, rfl, hadvance.position_le, Bool.noConfusion⟩
      | none => exact ⟨_, rfl, hle, Bool.noConfusion⟩
  | accept value =>
      rw [perform]
      cases c.peek.any (· == value) with
      | true => exact ⟨_, rfl, hadvance.position_le, Bool.noConfusion⟩
      | false => exact ⟨_, rfl, hle, Bool.noConfusion⟩
  | nextMatches value => exact ⟨_, rfl, hadvance.position_le, fun _ => hadvance⟩
  | upTo value => exact ⟨_, rfl, (hscan _).position_le, fun _ => hscan _⟩
  | upToEnd => exact ⟨_, rfl, (hscan _).position_le, fun _ => hscan _⟩
  | skipPast value =>
      have hskip : c.LeadsTo ((c.scan (· == value)).2.skip 1).cursor :=
        (hscan _).trans_le (position_le_skip (admissible_scan hc _) (by decide))
      rw [perform]
      dsimp only
      cases (c.scan (· == value)).1.stopper?.isSome with
      | true => exact ⟨_, rfl, hskip.position_le, fun _ => hskip⟩
      | false => exact ⟨_, rfl, (hscan _).position_le, fun _ => hscan _⟩
  | take count =>
      have hbound := hc.position_le
      rw [perform, LawfulSequence.slice_eq]
      refine ⟨_, rfl, ?_, ?_⟩
      · change c.position ≤ (min (c.position.toNat + count) c.length : Nat)
        omega
      · intro hcount
        have hfirst : 1 ≤ count := of_decide_eq_true hcount
        apply leadsTo_moveTo hc
        omega
  | remaining =>
      rw [perform, slice_rest]
      exact ⟨_, rfl, hle, Bool.noConfusion⟩
  | contents => exact ⟨_, rfl, hle, Bool.noConfusion⟩
  | reversed => exact ⟨_, rfl, hle, Bool.noConfusion⟩
  | visitRemaining =>
      rw [perform, slice_rest]
      exact ⟨_, rfl, hle, Bool.noConfusion⟩
  | skip move =>
      refine ⟨_, rfl, position_le_skip hc (of_decide_eq_true honward), ?_⟩
      intro hmove
      exact leadsTo_skip hc (of_decide_eq_true hmove)
  | seekEnd => exact ⟨_, rfl, hend.position_le, fun _ => hend⟩
  | seek target => cases honward
  | rewind => cases honward

end PlainCursor

/-! ## Cursors that progress -/

namespace Cursor.Sound

variable {c : Cursor S} [LawfulSequence S α]

omit [LawfulSequence S α] in
/-- A place on the same sequence that is not before the end is the end. -/
theorem eq_of_position_le {d : Cursor S} (hc : c.Sound) (hd : d.Sound)
    (hcontents : d.contents = c.contents) (hend : c.atEnd = true)
    (hle : c.position ≤ d.position) : d = c := by
  have hsequence : d.sequence = c.sequence := hcontents
  have hlast : c.position = c.length := beq_iff_eq.mp hend
  have hbound := hd.coherent.position_le
  rw [hsequence, ← hc.coherent.length_eq, ← hlast] at hbound
  exact hd.eq_of_position_eq hc hcontents (Int.le_antisymm hbound hle)

variable [BEq α]

/-- An onward request keeps to the sequence and does not lead back. -/
theorem exists_perform_onward (hc : c.Sound) {operation : Operation α}
    (honward : operation.onward = true) :
    ∃ reply, c.perform operation = .ok reply ∧ reply.cursor.Sound ∧
      reply.cursor.contents = c.contents ∧ c.position ≤ reply.cursor.position ∧
      (operation.advancing = true → c.atEnd = false → c.position < reply.cursor.position) := by
  obtain ⟨plain, hplain, hle, hleads⟩ := PlainCursor.exists_perform_onward hc.admissible honward
  obtain ⟨same, hsame, hadmissible, hsequence⟩ :=
    PlainCursor.exists_perform hc.admissible operation
  obtain rfl : plain = same := Except.ok.inj (hplain.symm.trans hsame)
  refine ⟨_, hc.perform_of_plain hplain, PlainCursor.sound_locate hadmissible, hsequence, hle, ?_⟩
  intro hadvancing hend
  have hplace := PlainCursor.atEnd_locate hc.admissible
  rw [hc.locate_plain, hend] at hplace
  exact (hleads hadvancing).position_lt hplace.symm

theorem exists_accept (hc : c.Sound) (value : α) :
    ∃ reply, c.accept value = .ok reply ∧
      (c.position < reply.cursor.position ↔ reply.answer = true) := by
  refine ⟨_, hc.accept_eq value, ?_⟩
  cases hpeek : c.plain.peek with
  | none => exact iff_of_false (Int.lt_irrefl _) Bool.false_ne_true
  | some element =>
      have hstep := PlainCursor.position_lt_advance hc.admissible hpeek
      rw [Option.any_some]
      cases element == value with
      | true => exact iff_of_true hstep rfl
      | false => exact iff_of_false (Int.lt_irrefl _) Bool.false_ne_true

omit [BEq α] in
theorem exists_demand (hc : c.Sound) :
    ∃ reply, c.demand = .ok reply ∧
      (c.position < reply.cursor.position ↔ ∃ element, reply.answer = .ok element) := by
  refine ⟨_, hc.demand_eq, ?_⟩
  cases hpeek : c.plain.peek with
  | none =>
      refine iff_of_false (Int.lt_irrefl _) ?_
      rintro ⟨element, hanswer⟩
      cases hanswer
  | some element =>
      exact iff_of_true (PlainCursor.position_lt_advance hc.admissible hpeek) ⟨element, rfl⟩

theorem progresses (hc : c.Sound) : c.Progresses := by
  constructor
  · intro operation honward
    obtain ⟨reply, hreply, -, -, hle, -⟩ := hc.exists_perform_onward honward
    exact ⟨reply, hreply, hle⟩
  · intro hend operation hadvancing
    obtain ⟨reply, hreply, -, -, -, hlt⟩ :=
      hc.exists_perform_onward (Operation.onward_of_advancing hadvancing)
    exact ⟨reply, hreply, hlt hadvancing hend⟩
  · exact hc.exists_accept
  · exact hc.exists_demand
  · intro hend operation honward
    obtain ⟨reply, hreply, hsound, hcontents, hle, -⟩ := hc.exists_perform_onward honward
    exact ⟨reply, hreply, hc.eq_of_position_le hsound hcontents hend hle⟩

/-- A run of onward requests keeps to the sequence and does not lead back. -/
theorem exists_run_onward (hc : c.Sound) (operations : List (Operation α))
    (honward : ∀ operation ∈ operations, operation.onward = true) :
    ∃ reply, c.run operations = .ok reply ∧ reply.cursor.Sound ∧
      reply.cursor.contents = c.contents ∧ c.position ≤ reply.cursor.position := by
  induction operations generalizing c with
  | nil => exact ⟨_, rfl, hc, rfl, Int.le_refl _⟩
  | cons operation operations ih =>
      obtain ⟨hhead, htail⟩ := List.forall_mem_cons.mp honward
      obtain ⟨reply, hreply, hsound, hcontents, hle, -⟩ := hc.exists_perform_onward hhead
      obtain ⟨later, hlater, hlast, hsame, hrest⟩ := ih hsound htail
      exact ⟨_, run_cons hreply hlater, hlast, hsame.trans hcontents, Int.le_trans hle hrest⟩

end Cursor.Sound

end SeqCursor
