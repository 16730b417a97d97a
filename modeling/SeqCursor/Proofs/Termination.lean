import SeqCursor.Proofs.Loop
import SeqCursor.Proofs.Progress

/-!
# Termination

A loop that runs until the cursor is at its end, and whose turns lead on, takes at most as
many turns as there are positions to go.  This is so of the loop inside of a scan, which
reads an element at a time and goes on where it found none, and of any loop of a client,
whatever it asks for in between and whatever it makes of the answers.
-/

namespace SeqCursor

open Sequence

variable {σ S α : Type} [Sequence S α]

namespace Cursor

/-- The number of positions between a cursor and its end. -/
def toGo (c : Cursor S) : Nat :=
  (c.length - c.position).toNat

/-- Requests that never lead back, one of which does lead on, take the one cursor to the
other. -/
inductive LeadsOn [BEq α] (c : Cursor S) : Cursor S → Prop where
  | intro {front back : List (Operation α)} {operation : Operation α}
      {before later : Reply (Cursor S) (List (Observation S α))}
      {after : Reply (Cursor S) (Answer S α)} :
      (∀ request ∈ front ++ operation :: back, request.onward = true) →
      c.run front = .ok before →
      before.cursor.perform operation = .ok after →
      before.cursor.position < after.cursor.position →
      after.cursor.run back = .ok later →
      LeadsOn c later.cursor

/-- The loop that takes turns until the cursor is at its end. -/
def untilEnd (turn : σ → Cursor S → Except Fault (Turn σ S)) : Loop σ S where
  goesOn c := .ok (!c.atEnd)
  turn := turn

/-- The turn of a scan: one read, and out of the loop with the element that stops it. -/
def scanTurn (stops : α → Bool) (found : Scan α) (c : Cursor S) :
    Except Fault (Turn (Scan α) S) := do
  let read ← c.next
  match read.answer with
  | none => return .again found read.cursor
  | some element =>
      if stops element then
        return .leave ⟨found.passed, some element⟩ read.cursor
      else
        return .again ⟨found.passed.push element, none⟩ read.cursor

/-- The turn of a client that reads block after block. -/
def takeTurn (count : Nat) (blocks : List S) (c : Cursor S) :
    Except Fault (Turn (List S) S) := do
  let taken ← c.take count
  return .again (blocks ++ [taken.answer]) taken.cursor

variable {c : Cursor S}

section

variable {turn : σ → Cursor S → Except Fault (Turn σ S)} {state : σ} {limit : Nat}

theorem not_atEnd_of_goesOn (hgoes : (untilEnd turn).goesOn c = .ok true) : c.atEnd = false := by
  change Except.ok (!c.atEnd) = _ at hgoes
  cases hend : c.atEnd with
  | false => rfl
  | true =>
      rw [hend] at hgoes
      cases hgoes

theorem goesOn_of_not_atEnd (hend : c.atEnd = false) : (untilEnd turn).goesOn c = .ok true :=
  congrArg (fun ended => Except.ok (!ended)) hend

theorem runWithin_of_atEnd (hend : c.atEnd = true) :
    (untilEnd turn).runWithin limit state c = .ok (some (state, c)) :=
  Loop.runWithin_of_not_goesOn (congrArg (fun ended => Except.ok (!ended)) hend)

end

theorem Sound.toGo_pos (hc : c.Sound) (hend : c.atEnd = false) : 0 < c.toGo := by
  have hbound := hc.coherent.position_le
  have hother : c.position ≠ c.length := by
    intro hlast
    rw [atEnd, hlast, beq_self_eq_true] at hend
    cases hend
  rw [← hc.coherent.length_eq] at hbound
  rw [toGo]
  omega

theorem Sound.toGo_lt {d : Cursor S} (hc : c.Sound) (hd : d.Sound)
    (hcontents : d.contents = c.contents) (hlt : c.position < d.position) :
    d.toGo < c.toGo := by
  have hsequence : d.sequence = c.sequence := hcontents
  have hbound := hd.coherent.position_le
  have hlength := hd.coherent.length_eq
  rw [hsequence, ← hc.coherent.length_eq] at hbound hlength
  rw [toGo, toGo, hlength]
  omega

variable [LawfulSequence S α] [BEq α]

theorem LeadsOn.sound {d : Cursor S} (hleads : c.LeadsOn d) (hc : c.Sound) :
    d.Sound ∧ d.contents = c.contents ∧ c.position < d.position := by
  obtain ⟨honward, hfront, hoperation, hlt, hback⟩ := hleads
  obtain ⟨hfirst, hrest⟩ := List.forall_mem_append.mp honward
  obtain ⟨hhead, hlast⟩ := List.forall_mem_cons.mp hrest
  obtain ⟨before, hbefore, hsound, hcontents, hle⟩ := hc.exists_run_onward _ hfirst
  obtain rfl := Except.ok.inj (hfront.symm.trans hbefore)
  obtain ⟨after, hafter, hsound, hsame, -, -⟩ := hsound.exists_perform_onward hhead
  obtain rfl := Except.ok.inj (hoperation.symm.trans hafter)
  obtain ⟨later, hlater, hsound, hend, hge⟩ := hsound.exists_run_onward _ hlast
  obtain rfl := Except.ok.inj (hback.symm.trans hlater)
  exact ⟨hsound, hend.trans (hsame.trans hcontents),
    Int.lt_of_le_of_lt hle (Int.lt_of_lt_of_le hlt hge)⟩

omit [LawfulSequence S α] in
theorem leadsOn_of_perform {operation : Operation α} (honward : operation.onward = true)
    {reply : Reply (Cursor S) (Answer S α)} (hreply : c.perform operation = .ok reply)
    (hlt : c.position < reply.cursor.position) : c.LeadsOn reply.cursor := by
  have hone : ∀ request ∈ [] ++ operation :: [], request.onward = true := by
    rw [List.nil_append, List.forall_mem_singleton]
    exact honward
  have hfront : c.run ([] : List (Operation α)) = .ok ⟨[], c, []⟩ := rfl
  have hback : reply.cursor.run ([] : List (Operation α)) = .ok ⟨[], reply.cursor, []⟩ := rfl
  exact .intro hone hfront hreply hlt hback

/-- A request that leads on from every place but the end takes the cursor on, however its
answer is put. -/
theorem Sound.exists_leadsOn {β : Type} (hc : c.Sound) (hend : c.atEnd = false)
    (operation : Operation α) (hadvancing : operation.advancing = true)
    {outcome : Except Fault (Reply (Cursor S) β)} {put : β → Answer S α}
    (houtcome : c.perform operation = outcome >>= fun reply => pure (reply.map put)) :
    ∃ reply, outcome = .ok reply ∧ c.LeadsOn reply.cursor := by
  have honward := Operation.onward_of_advancing hadvancing
  obtain ⟨reply, hreply, -, -, -, hlt⟩ := hc.exists_perform_onward honward
  have hleads := leadsOn_of_perform honward hreply (hlt hadvancing hend)
  rw [houtcome] at hreply
  cases outcome with
  | error fault => cases hreply
  | ok found =>
      obtain rfl : found.map put = reply := Except.ok.inj hreply
      exact ⟨found, rfl, hleads⟩

/-- A loop until the end is at it after as many turns as there are positions to go. -/
theorem Sound.exists_untilEnd (hc : c.Sound) (turn : σ → Cursor S → Except Fault (Turn σ S))
    (holds : σ → Cursor S → Prop)
    (hturn : ∀ state d, d.Reachable → holds state d → d.atEnd = false →
      ∃ result, turn state d = .ok result ∧
        ∀ next after, result = .again next after → d.LeadsOn after ∧ holds next after)
    (state : σ) (hstart : holds state c) :
    ∃ ended, (untilEnd turn).runWithin c.toGo state c = .ok (some ended) := by
  apply Loop.exists_runWithin (fun state d => d.Sound ∧ holds state d) toGo
  · intro state d _
    exact ⟨_, rfl⟩
  · intro state d hd hgoes
    exact hd.1.toGo_pos (not_atEnd_of_goesOn hgoes)
  · intro state d hd hgoes
    have hend := not_atEnd_of_goesOn hgoes
    obtain ⟨result, hresult, hagain⟩ := hturn state d hd.1.reachable hd.2 hend
    refine ⟨result, hresult, ?_⟩
    intro next after hnext
    obtain ⟨hleads, hkept⟩ := hagain next after hnext
    obtain ⟨hafter, hcontents, hlt⟩ := hleads.sound hd.1
    exact ⟨⟨hafter, hkept⟩, hd.1.toGo_lt hafter hcontents hlt⟩
  · exact ⟨hc, hstart⟩
  · exact Nat.le_refl _

/-! ## The loop inside of a scan -/

omit [LawfulSequence S α] [BEq α] in
theorem scanTurn_of_next {stops : α → Bool} {found : Scan α}
    {read : Reply (Cursor S) (Option α)} (hread : c.next = .ok read) :
    scanTurn stops found c = .ok
      (match read.answer with
      | none => .again found read.cursor
      | some element =>
          if stops element then
            .leave ⟨found.passed, some element⟩ read.cursor
          else
            .again ⟨found.passed.push element, none⟩ read.cursor) := by
  rw [scanTurn, hread]
  change (match read.answer with | none => _ | some element => _) = _
  cases read.answer with
  | none => rfl
  | some element =>
      dsimp only
      split <;> rfl

omit [LawfulSequence S α] [BEq α] in
/-- Where the loop of single reads has ended, it has found what the scan finds. -/
theorem scanFrom_of_runWithin {stops : α → Bool} {limit : Nat} {passed : Array α}
    {found : Scan α} {last : Cursor S}
    (hrun : (untilEnd (scanTurn stops)).runWithin limit ⟨passed, none⟩ c =
      .ok (some (found, last))) :
    scanFrom stops passed c = .ok ⟨found, last, []⟩ := by
  induction limit generalizing passed c with
  | zero =>
      cases hend : c.atEnd with
      | true =>
          rw [runWithin_of_atEnd hend] at hrun
          cases hrun
          exact scanFrom_of_atEnd stops passed hend
      | false =>
          rw [Loop.runWithin_zero (goesOn_of_not_atEnd hend)] at hrun
          cases hrun
  | succ limit ih =>
      cases hend : c.atEnd with
      | true =>
          rw [runWithin_of_atEnd hend] at hrun
          cases hrun
          exact scanFrom_of_atEnd stops passed hend
      | false =>
          rw [Loop.runWithin_succ (goesOn_of_not_atEnd hend)] at hrun
          change (scanTurn stops ⟨passed, none⟩ c >>= _) = _ at hrun
          cases hread : c.next with
          | error fault =>
              rw [scanTurn, hread] at hrun
              cases hrun
          | ok read =>
              rw [scanTurn_of_next hread] at hrun
              rw [scanFrom_of_next stops passed hend hread]
              cases hanswer : read.answer with
              | none =>
                  rw [hanswer] at hrun
                  exact ih hrun
              | some element =>
                  rw [hanswer] at hrun
                  dsimp only at hrun ⊢
                  by_cases hstops : stops element = true
                  · rw [if_pos hstops] at hrun ⊢
                    cases hrun
                    rfl
                  · rw [if_neg hstops] at hrun ⊢
                    exact ih hrun

theorem scanTurn_leadsOn (stops : α → Bool) (hc : c.Sound) (hend : c.atEnd = false)
    (found : Scan α) :
    ∃ result, scanTurn stops found c = .ok result ∧
      ∀ next after, result = .again next after → c.LeadsOn after := by
  obtain ⟨read, hread, hleads⟩ := hc.exists_leadsOn hend .next rfl rfl
  refine ⟨_, scanTurn_of_next hread, ?_⟩
  intro next after hagain
  cases hanswer : read.answer with
  | none =>
      rw [hanswer] at hagain
      cases hagain
      exact hleads
  | some element =>
      rw [hanswer] at hagain
      dsimp only at hagain
      by_cases hstops : stops element = true
      · rw [if_pos hstops] at hagain
        cases hagain
      · rw [if_neg hstops] at hagain
        cases hagain
        exact hleads

/-! ## Block after block -/

theorem takeTurn_leadsOn {count : Nat} (hcount : 1 ≤ count) (hc : c.Sound)
    (hend : c.atEnd = false) (blocks : List S) :
    ∃ result, takeTurn count blocks c = .ok result ∧
      ∀ next after, result = .again next after → c.LeadsOn after := by
  obtain ⟨taken, htaken, hleads⟩ :=
    hc.exists_leadsOn hend (.take count) (decide_eq_true hcount) rfl
  refine ⟨.again (blocks ++ [taken.answer]) taken.cursor, ?_, ?_⟩
  · rw [takeTurn, htaken]
    rfl
  · intro next after hagain
    cases hagain
    exact hleads

example : (untilEnd (takeTurn 3)).runWithin 5 [] (on "aé🦀b") =
    .ok (some (["aé🦀", "b"], ⟨"aé🦀b", 4, 4, 8⟩)) := by
  rfl

/-- On every reachable cursor reading on never leads back, leads on unless the cursor is at
its end, and changes nothing there.  So a scan comes to its end within as many rounds as
there are positions to go, and so does every loop until the end whose turns lead on. -/
theorem reading_on_ends (hc : c.Reachable) :
    c.Progresses ∧
    (∀ stops : α → Bool, ∃ found last,
      (untilEnd (scanTurn stops)).runWithin c.toGo ⟨#[], none⟩ c = .ok (some (found, last)) ∧
        c.scan stops = .ok ⟨found, last, []⟩) ∧
    (∀ {σ : Type} (turn : σ → Cursor S → Except Fault (Turn σ S)) (holds : σ → Cursor S → Prop),
      (∀ state d, d.Reachable → holds state d → d.atEnd = false →
        ∃ result, turn state d = .ok result ∧
          ∀ next after, result = .again next after → d.LeadsOn after ∧ holds next after) →
      ∀ state, holds state c →
        ∃ ended, (untilEnd turn).runWithin c.toGo state c = .ok (some ended)) := by
  refine ⟨hc.sound.progresses, ?_, ?_⟩
  · intro stops
    obtain ⟨⟨found, last⟩, hrun⟩ := hc.sound.exists_untilEnd (scanTurn stops) (fun _ _ => True)
      (by
        intro state d hd _ hend
        obtain ⟨result, hresult, hagain⟩ := scanTurn_leadsOn stops hd.sound hend state
        exact ⟨result, hresult, fun next after hnext => ⟨hagain next after hnext, trivial⟩⟩)
      ⟨#[], none⟩ trivial
    exact ⟨found, last, hrun, scanFrom_of_runWithin hrun⟩
  · intro σ turn holds hturn state hstart
    exact hc.sound.exists_untilEnd turn holds hturn state hstart

/-- A scan for the last character, and blocks of two, over characters of one to four
bytes. -/
theorem reading_on_ends_mixed_widths :
    (on "aé🦀b").Reachable ∧ (on "aé🦀b").toGo = 5 ∧
    (on "aé🦀b").Progresses ∧
    (∃ found last, (untilEnd (scanTurn (· == 'b'))).runWithin 5 ⟨#[], none⟩ (on "aé🦀b") =
        .ok (some (found, last)) ∧
      (on "aé🦀b").scan (· == 'b') = .ok ⟨found, last, []⟩) ∧
    (∀ (blocks : List String) (d : Cursor String), d.Reachable → True → d.atEnd = false →
      ∃ result, takeTurn 2 blocks d = .ok result ∧
        ∀ next after, result = .again next after → d.LeadsOn after ∧ True) ∧
    ∃ ended, (untilEnd (takeTurn 2)).runWithin 5 [] (on "aé🦀b") = .ok (some ended) := by
  have hreachable : (on "aé🦀b").Reachable :=
    reachable_on Text.addressable_mixed_widths
  have hblocks : ∀ (blocks : List String) (d : Cursor String),
      d.Reachable → True → d.atEnd = false → ∃ result, takeTurn 2 blocks d = .ok result ∧
        ∀ next after, result = .again next after → d.LeadsOn after ∧ True := by
    intro blocks d hd _ hend
    obtain ⟨result, hresult, hagain⟩ :=
      takeTurn_leadsOn (Nat.le_succ 1) hd.sound hend blocks
    exact ⟨result, hresult, fun next after hnext => ⟨hagain next after hnext, trivial⟩⟩
  obtain ⟨hprogresses, hscans, hloops⟩ := reading_on_ends hreachable
  exact ⟨hreachable, by decide, hprogresses, hscans (· == 'b'), hblocks,
    hloops (takeTurn 2) (fun _ _ => True) hblocks [] trivial⟩

end Cursor

end SeqCursor
