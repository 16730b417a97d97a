import SeqCursor.Proofs.SessionInvariant

/-!
# What reading passes over

Reading on takes elements off the front of what is left: whichever reads follow one
another, the elements they pass over and those that are left make up what was left
before.  Nothing is lost between two reads and nothing is read twice.
-/

namespace SeqCursor

open Sequence

variable {S α : Type}

/-- The requests that read on, and those that only look. -/
def Operation.readsOn : Operation α → Bool
  | .skipPast _ => false
  | .take _ => false
  | .seek _ => false
  | .skip _ => false
  | .rewind => false
  | .seekEnd => false
  | _ => true

variable [Sequence S α]

namespace Cursor

variable [BEq α]

/-- The elements that an operation of a cursor passes over, given what it answered.
A single read passes the element that it found, a comparison the element that it
compared, and a scan what it answered and the element that stopped it. -/
def passedOver (c : Cursor S) : Operation α → Answer S α → Except Fault (List α)
  | .next, .element found? => .ok found?.toList
  | .demand, .demanded found => .ok [found]
  | .accept _, .decided true => return (← c.peek).toList
  | .nextMatches _, .decided _ => return (← c.peek).toList
  | .upTo value, .part passed => do
      let found ← c.scan (· == value)
      return toList passed ++ found.answer.stopper?.toList
  | .upToEnd, .part passed => .ok (toList passed)
  | _, _ => .ok []

/-- The elements that a run of operations passes over, in order. -/
def trail (c : Cursor S) : List (Operation α) → Except Fault (List α)
  | [] => .ok []
  | operation :: operations => do
      let reply ← c.perform operation
      let passed ← c.passedOver operation reply.answer
      let later ← reply.cursor.trail operations
      return passed ++ later

end Cursor

/-! ## What is left after a read -/

/-- Up to an element and behind it: nothing else is in a list. -/
theorem takeWhile_append_find?_append_drop (stops : α → Bool) (elements : List α) :
    elements.takeWhile (!stops ·) ++ (elements.find? stops).toList ++
      elements.drop ((elements.takeWhile (!stops ·)).length + 1) = elements := by
  induction elements with
  | nil => rfl
  | cons head tail ih =>
      by_cases hhead : stops head = true
      · simp [hhead]
      · simpa [hhead] using ih

namespace PlainCursor

variable {c : PlainCursor S}

variable [LawfulSequence S α]

/-- One step takes the element ahead off the rest. -/
theorem rest_advance (hc : c.Admissible) : c.rest = c.peek.toList ++ c.advance.rest := by
  cases hend : c.atEnd with
  | true =>
      have hpeek := peek_eq_none hc (Int.le_add_one (length_le_of_atEnd hend))
      simp [hpeek, advance, hend]
  | false =>
      rw [advance_of_not_atEnd hend]
      cases hpeek : c.peek with
      | none =>
          rw [rest_step hc, rest_eq_nil hc hpeek]
          rfl
      | some element => exact rest_eq_cons hc hpeek

/-- Behind the element that stops a scan lies the rest without what was passed and
without that element. -/
theorem rest_scanTarget (hc : c.Admissible) (stops : α → Bool) :
    (c.moveTo (c.scanTarget stops)).rest =
      c.rest.drop ((c.rest.takeWhile (!stops ·)).length + 1) := by
  have hfirst := hc.position_succ_nonneg
  have hlength := c.length_eq
  generalize hpassed : (c.rest.takeWhile (!stops ·)).length = passed
  have htarget : c.scanTarget stops = min (c.position + 1 + passed) c.length := by
    rw [scanTarget, hpassed]
  change (toList c.sequence).drop (c.scanTarget stops + 1).toNat =
    ((toList c.sequence).drop (c.position + 1).toNat).drop (passed + 1)
  rw [List.drop_drop, htarget]
  rcases Int.le_total (c.position + 1 + passed) c.length with hwithin | hpast
  · have hindex : (min (c.position + 1 + passed) c.length + 1 : Int).toNat =
        (c.position + 1).toNat + (passed + 1) := by
      omega
    rw [hindex]
  · rw [List.drop_eq_nil_of_le (by omega), List.drop_eq_nil_of_le (by omega)]

/-! ## Passing from one place to a later one -/

/-- Between the places lie the given elements, and nothing else. -/
structure Passes (c d : PlainCursor S) (passed : List α) : Prop where
  sequence_eq : d.sequence = c.sequence
  position_le : c.position ≤ d.position
  rest_eq : c.rest = passed ++ d.rest

omit [LawfulSequence S α] in
theorem Passes.refl (c : PlainCursor S) : c.Passes c [] :=
  ⟨rfl, Int.le_refl _, rfl⟩

omit [LawfulSequence S α] in
theorem Passes.trans {c d e : PlainCursor S} {first second : List α} (hfirst : c.Passes d first)
    (hsecond : d.Passes e second) : c.Passes e (first ++ second) := by
  constructor
  · exact hsecond.sequence_eq.trans hfirst.sequence_eq
  · exact Int.le_trans hfirst.position_le hsecond.position_le
  · calc
      c.rest = first ++ d.rest := hfirst.rest_eq
      _ = first ++ (second ++ e.rest) := by rw [hsecond.rest_eq]
      _ = (first ++ second) ++ e.rest := (List.append_assoc _ _ _).symm

theorem passes_advance (hc : c.Admissible) : c.Passes c.advance c.peek.toList := by
  refine ⟨sequence_advance c, ?_, rest_advance hc⟩
  cases hend : c.atEnd with
  | true => simp [advance, hend]
  | false =>
      rw [advance_of_not_atEnd hend]
      exact Int.le_add_one (Int.le_refl _)

theorem passes_scan (hc : c.Admissible) (stops : α → Bool) :
    c.Passes (c.scan stops).2
      ((c.scan stops).1.passed.toList ++ (c.scan stops).1.stopper?.toList) := by
  have hbound := hc.position_le
  rw [scan_eq hc]
  refine ⟨rfl, ?_, ?_⟩
  · change c.position ≤ min (c.position + 1 + (_ : Nat)) (c.length : Int)
    omega
  · rw [rest_scanTarget hc]
    exact (takeWhile_append_find?_append_drop stops c.rest).symm

/-- The elements between two places, by index. -/
theorem Passes.eq_drop_take {d : PlainCursor S} {passed : List α} (hpasses : c.Passes d passed) :
    passed = ((toList c.sequence).take (min (d.position + 1) c.length).toNat).drop
      (c.position + 1).toNat := by
  have hle := hpasses.position_le
  generalize hcount : (d.position + 1).toNat - (c.position + 1).toNat = count
  have hstop : (min (d.position + 1) c.length).toNat =
      min (d.position + 1).toNat (toList c.sequence).length := by
    rw [← length_eq]
    omega
  have hbetween : ((toList c.sequence).take (min (d.position + 1) c.length).toNat).drop
      (c.position + 1).toNat = c.rest.take count := by
    rw [hstop, ← List.take_eq_take_min, List.drop_take, hcount]
    rfl
  have hbehind : d.rest = c.rest.drop count := by
    have hsplit : (d.position + 1).toNat = (c.position + 1).toNat + count := by omega
    rw [rest, rest, hpasses.sequence_eq, List.drop_drop, hsplit]
  rw [hbetween]
  apply List.append_cancel_right
  calc
    passed ++ d.rest = c.rest := hpasses.rest_eq.symm
    _ = c.rest.take count ++ c.rest.drop count := (List.take_append_drop count c.rest).symm
    _ = c.rest.take count ++ d.rest := by rw [hbehind]

variable [BEq α]

/-- One read passes over the elements between the two places. -/
theorem exists_passes (hc : c.Admissible) (operation : Operation α)
    (hreads : operation.readsOn = true) :
    ∃ reply passed, c.perform operation = .ok reply ∧
      c.locate.passedOver operation reply.answer = .ok passed ∧
      c.Passes reply.cursor passed := by
  cases operation with
  | position => exact ⟨_, _, rfl, rfl, Passes.refl c⟩
  | isEmpty => exact ⟨_, _, rfl, rfl, Passes.refl c⟩
  | atEnd => exact ⟨_, _, rfl, rfl, Passes.refl c⟩
  | peek => exact ⟨_, _, rfl, rfl, Passes.refl c⟩
  | current => exact ⟨_, _, rfl, rfl, Passes.refl c⟩
  | next => exact ⟨_, _, rfl, rfl, passes_advance hc⟩
  | demand =>
      have hadvance := passes_advance hc
      rw [perform]
      cases hpeek : c.peek with
      | some element =>
          rw [hpeek] at hadvance
          exact ⟨_, _, rfl, rfl, hadvance⟩
      | none => exact ⟨_, _, rfl, rfl, Passes.refl c⟩
  | accept value =>
      change ∃ reply passed, (if c.peek.any (· == value) then _ else _) = Except.ok reply ∧ _
      cases c.peek.any (· == value) with
      | true =>
          refine ⟨_, c.peek.toList, rfl, ?_, passes_advance hc⟩
          change (c.locate.peek >>= _) = _
          rw [peek_locate hc]
          rfl
      | false => exact ⟨_, _, rfl, rfl, Passes.refl c⟩
  | nextMatches value =>
      refine ⟨_, c.peek.toList, rfl, ?_, passes_advance hc⟩
      change (c.locate.peek >>= _) = _
      rw [peek_locate hc]
      rfl
  | upTo value =>
      refine ⟨_, _, rfl, ?_, passes_scan hc (· == value)⟩
      change (c.locate.scan (· == value) >>= fun found =>
        Except.ok (toList (ofList (c.scan (· == value)).1.passed.toList : S) ++
          found.answer.stopper?.toList)) = _
      rw [scan_locate hc, LawfulSequence.toList_ofList]
      rfl
  | upToEnd =>
      have hscan := passes_scan hc fun _ => false
      have hstopper : (c.scan fun _ => false).1.stopper? = none := by
        rw [scan_eq hc]
        exact List.find?_eq_none.mpr fun _ _ => Bool.false_ne_true
      rw [hstopper] at hscan
      refine ⟨_, _, rfl, ?_, hscan⟩
      change Except.ok (toList (ofList (c.scan fun _ => false).1.passed.toList : S)) = _
      rw [LawfulSequence.toList_ofList, Option.toList_none, List.append_nil]
  | remaining =>
      change ∃ reply passed, (Sequence.slice c.sequence (c.position + 1).toNat c.length >>= _) =
        Except.ok reply ∧ _
      rw [slice_rest]
      exact ⟨_, _, rfl, rfl, Passes.refl c⟩
  | contents => exact ⟨_, _, rfl, rfl, Passes.refl c⟩
  | reversed => exact ⟨_, _, rfl, rfl, Passes.refl c⟩
  | visitRemaining =>
      change ∃ reply passed, (Sequence.slice c.sequence (c.position + 1).toNat c.length >>= _) =
        Except.ok reply ∧ _
      rw [slice_rest]
      exact ⟨_, _, rfl, rfl, Passes.refl c⟩
  | skipPast value => cases hreads
  | take count => cases hreads
  | seek target => cases hreads
  | skip move => cases hreads
  | rewind => cases hreads
  | seekEnd => cases hreads

/-- A run of reads passes over the elements between the two places. -/
theorem exists_trail (hc : c.Admissible) (operations : List (Operation α))
    (hreads : ∀ operation ∈ operations, operation.readsOn = true) :
    ∃ plain passed, c.run operations = .ok plain ∧ c.locate.trail operations = .ok passed ∧
      c.Passes plain.cursor passed := by
  induction operations generalizing c with
  | nil => exact ⟨_, _, rfl, rfl, Passes.refl c⟩
  | cons operation operations ih =>
      obtain ⟨hhead, htail⟩ := List.forall_mem_cons.mp hreads
      obtain ⟨reply, passed, hreply, hpassed, hfirst⟩ := exists_passes hc operation hhead
      obtain ⟨later, laterPassed, hrun, htrail, hsecond⟩ := ih (hc.of_perform hreply) htail
      refine ⟨_, passed ++ laterPassed, run_cons hreply hrun, ?_, hfirst.trans hsecond⟩
      change (c.locate.perform operation >>= _) = _
      rw [perform_locate_of_eq_ok hc hreply]
      change (c.locate.passedOver operation reply.answer >>= _) = _
      rw [hpassed]
      change (reply.cursor.locate.trail operations >>= _) = _
      rw [htrail]
      rfl

end PlainCursor

/-! ## Nothing lost, nothing twice -/

namespace Cursor

variable [BEq α]

variable [LawfulSequence S α]

/-- A comparison that fails leaves the cursor as it was. -/
theorem cursor_of_accept_eq_false {c : Cursor S} (hc : c.Sound) {value : α}
    {reply : Reply (Cursor S) Bool} (hreply : c.accept value = .ok reply)
    (hanswer : reply.answer = false) : reply.cursor = c := by
  rw [hc.accept_eq] at hreply
  obtain rfl := Except.ok.inj hreply
  by_cases hequal : c.plain.peek.any (· == value) = true
  · rw [if_pos hequal] at hanswer
    cases hanswer
  · rw [if_neg hequal]

omit [BEq α] in
/-- A demand that fails leaves the cursor as it was. -/
theorem cursor_of_demand_eq_error {c : Cursor S} (hc : c.Sound)
    {reply : Reply (Cursor S) (Except ReadError α)} {error : ReadError}
    (hreply : c.demand = .ok reply) (hanswer : reply.answer = .error error) :
    reply.cursor = c := by
  rw [hc.demand_eq] at hreply
  obtain rfl := Except.ok.inj hreply
  cases hpeek : c.plain.peek with
  | some element =>
      rw [hpeek] at hanswer
      cases hanswer
  | none => rfl

/-- From a reachable cursor, any run of reads passes over exactly the elements with
indices behind its position up to the position it ends at, and leaves exactly those
behind that.  A comparison or a demanded read that fails moves nothing. -/
theorem reads_abut {c : Cursor S} (hc : c.Reachable) (operations : List (Operation α))
    (hreads : ∀ operation ∈ operations, operation.readsOn = true) :
    (∃ reply rest, c.run operations = .ok reply ∧
      c.trail operations = .ok (((toList c.contents).take
        (min (reply.cursor.position + 1) (Sequence.length c.contents)).toNat).drop
          (c.position + 1).toNat) ∧
      reply.cursor.contents = c.contents ∧
      reply.cursor.remaining = .ok rest ∧
      toList rest = (toList c.contents).drop (reply.cursor.position + 1).toNat) ∧
    (∀ value reply, c.accept value = .ok reply → reply.answer = false → reply.cursor = c) ∧
    (∀ reply error, c.demand = .ok reply → reply.answer = .error error → reply.cursor = c) := by
  have hadmissible := hc.sound.admissible
  obtain ⟨plain, passed, hplain, htrail, hpasses⟩ :=
    PlainCursor.exists_trail hadmissible operations hreads
  obtain ⟨same, hsame, hreal, hlast, -⟩ := PlainCursor.exists_run hadmissible operations
  obtain rfl : plain = same := Except.ok.inj (hplain.symm.trans hsame)
  rw [hc.sound.locate_plain] at htrail hreal
  refine ⟨⟨plain.mapCursor PlainCursor.locate, ofList plain.cursor.rest, hreal, ?_,
    hpasses.sequence_eq, ?_, ?_⟩, ?_, ?_⟩
  · rw [htrail, hpasses.eq_drop_take]
    rfl
  · change plain.cursor.locate.remaining = _
    rw [PlainCursor.remaining_locate hlast, PlainCursor.slice_rest]
  · rw [LawfulSequence.toList_ofList, PlainCursor.rest, hpasses.sequence_eq]
    rfl
  · intro value reply hreply hanswer
    exact cursor_of_accept_eq_false hc.sound hreply hanswer
  · intro reply error hreply hanswer
    exact cursor_of_demand_eq_error hc.sound hreply hanswer

/-- A field is read up to its stop, the next one element by element and to the end. -/
theorem reads_abut_fields :
    (on "é=🦀;b").Reachable ∧
    (∀ operation ∈ [.accept '=', .upTo '=', .next, .nextMatches ';', .demand, .demand, .upToEnd],
      Operation.readsOn operation = true) ∧
    (∃ reply rest,
      (on "é=🦀;b").run
        [.accept '=', .upTo '=', .next, .nextMatches ';', .demand, .demand, .upToEnd] =
          .ok reply ∧
      (on "é=🦀;b").trail
        [.accept '=', .upTo '=', .next, .nextMatches ';', .demand, .demand, .upToEnd] =
          .ok (((toList "é=🦀;b").take
            (min (reply.cursor.position + 1) (Sequence.length "é=🦀;b")).toNat).drop
              (beforeFirst + 1).toNat) ∧
      reply.cursor.contents = "é=🦀;b" ∧
      reply.cursor.remaining = .ok rest ∧
      toList rest = (toList "é=🦀;b").drop (reply.cursor.position + 1).toNat) := by
  have hreachable : (on "é=🦀;b").Reachable :=
    reachable_on (Text.addressable (by decide) (by decide))
  have hreads : ∀ operation ∈
      [.accept '=', .upTo '=', .next, .nextMatches ';', .demand, .demand, .upToEnd],
      Operation.readsOn operation = true := by
    decide
  exact ⟨hreachable, hreads, (reads_abut hreachable _ hreads).1⟩

end Cursor

end SeqCursor
