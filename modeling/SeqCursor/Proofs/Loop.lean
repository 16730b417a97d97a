import SeqCursor.Cursor.Reading

/-!
# Loops around a cursor

A loop tests the cursor, takes a turn and tests again; a turn may also leave it.  Nothing
says beforehand that a loop comes to an end, so it is run for a number of turns, after
which it has ended or is still going on.  It has ended where every turn that leads to
another one takes something from a bound that is not used up before the test fails.
-/

namespace SeqCursor

/-- What a turn of a loop leads to: another turn, or out of the loop. -/
inductive Turn (σ S : Type) where
  | again (state : σ) (cursor : Cursor S)
  | leave (state : σ) (cursor : Cursor S)

/-- A loop around a cursor, with a state of its own. -/
structure Loop (σ S : Type) where
  /-- Whether there is another turn. -/
  goesOn : Cursor S → Except Fault Bool
  turn : σ → Cursor S → Except Fault (Turn σ S)

namespace Loop

variable {σ S : Type}

/-- Runs a loop for at most `limit` turns, and answers the state and the cursor that it
ends with, or nothing where it still goes on. -/
def runWithin (loop : Loop σ S) : Nat → σ → Cursor S → Except Fault (Option (σ × Cursor S))
  | 0, state, c => do
      let goes ← loop.goesOn c
      return if goes then none else some (state, c)
  | limit + 1, state, c => do
      let goes ← loop.goesOn c
      if goes then
        match ← loop.turn state c with
        | .again next after => loop.runWithin limit next after
        | .leave last after => return some (last, after)
      else
        return some (state, c)

variable {loop : Loop σ S} {limit : Nat} {state : σ} {c : Cursor S}

theorem runWithin_of_not_goesOn (hguard : loop.goesOn c = .ok false) :
    loop.runWithin limit state c = .ok (some (state, c)) := by
  cases limit with
  | zero =>
      rw [runWithin, hguard]
      rfl
  | succ limit =>
      rw [runWithin, hguard]
      rfl

theorem runWithin_zero (hguard : loop.goesOn c = .ok true) :
    loop.runWithin 0 state c = .ok none := by
  rw [runWithin, hguard]
  rfl

theorem runWithin_succ (hguard : loop.goesOn c = .ok true) :
    loop.runWithin (limit + 1) state c = (loop.turn state c >>= fun turn =>
      match turn with
      | .again next after => loop.runWithin limit next after
      | .leave last after => .ok (some (last, after))) := by
  rw [runWithin, hguard]
  rfl

theorem runWithin_of_again {next : σ} {after : Cursor S} (hguard : loop.goesOn c = .ok true)
    (hturn : loop.turn state c = .ok (.again next after)) :
    loop.runWithin (limit + 1) state c = loop.runWithin limit next after := by
  rw [runWithin_succ hguard, hturn]
  rfl

theorem runWithin_of_leave {last : σ} {after : Cursor S} (hguard : loop.goesOn c = .ok true)
    (hturn : loop.turn state c = .ok (.leave last after)) :
    loop.runWithin (limit + 1) state c = .ok (some (last, after)) := by
  rw [runWithin_succ hguard, hturn]
  rfl

/-- With a turn before it, a loop takes one turn more. -/
theorem runWithin_of_again_of_le {next : σ} {after : Cursor S} {turns : Nat}
    {ended : Except Fault (Option (σ × Cursor S))} (hguard : loop.goesOn c = .ok true)
    (hturn : loop.turn state c = .ok (.again next after))
    (hrun : ∀ limit, turns ≤ limit → loop.runWithin limit next after = ended)
    (limit : Nat) (hlimit : turns + 1 ≤ limit) : loop.runWithin limit state c = ended := by
  cases limit with
  | zero => exact absurd hlimit (Nat.not_succ_le_zero _)
  | succ limit =>
      rw [runWithin_of_again hguard hturn]
      exact hrun limit (Nat.le_of_succ_le_succ hlimit)

theorem runWithin_of_leave_of_le {last : σ} {after : Cursor S}
    (hguard : loop.goesOn c = .ok true) (hturn : loop.turn state c = .ok (.leave last after))
    (limit : Nat) (hlimit : 1 ≤ limit) :
    loop.runWithin limit state c = .ok (some (last, after)) := by
  cases limit with
  | zero => exact absurd hlimit (Nat.not_succ_le_zero _)
  | succ limit => exact runWithin_of_leave hguard hturn

/-- A loop has ended after as many turns as `left` counts, where `left` is not zero while
the loop goes on and every turn takes something from it.  What `holds` at the start is
kept from turn to turn. -/
theorem exists_runWithin (holds : σ → Cursor S → Prop) (left : Cursor S → Nat)
    (hguard : ∀ state c, holds state c → ∃ goes, loop.goesOn c = .ok goes)
    (hleft : ∀ state c, holds state c → loop.goesOn c = .ok true → 0 < left c)
    (hturn : ∀ state c, holds state c → loop.goesOn c = .ok true →
      ∃ turn, loop.turn state c = .ok turn ∧
        ∀ next after, turn = .again next after → holds next after ∧ left after < left c)
    (hstart : holds state c) (hlimit : left c ≤ limit) :
    ∃ ended, loop.runWithin limit state c = .ok (some ended) := by
  induction limit generalizing state c with
  | zero =>
      obtain ⟨goes, hgoes⟩ := hguard state c hstart
      cases goes with
      | false => exact ⟨_, runWithin_of_not_goesOn hgoes⟩
      | true => exact absurd (hleft state c hstart hgoes) (by omega)
  | succ limit ih =>
      obtain ⟨goes, hgoes⟩ := hguard state c hstart
      cases goes with
      | false => exact ⟨_, runWithin_of_not_goesOn hgoes⟩
      | true =>
          obtain ⟨turn, hanswer, hagain⟩ := hturn state c hstart hgoes
          cases turn with
          | leave last after => exact ⟨_, runWithin_of_leave hgoes hanswer⟩
          | again next after =>
              obtain ⟨hnext, hless⟩ := hagain next after rfl
              rw [runWithin_of_again hgoes hanswer]
              exact ih hnext (by omega)

end Loop

end SeqCursor
