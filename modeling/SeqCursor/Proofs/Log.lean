import SeqCursor.Proofs.FirstOccurrence

/-!
# The log

Requests that were refused or clamped leave notices, and a log is the notices of a run in
the order in which they were left.  An entry can be told beforehand from the place of the
cursor and the length of its sequence: a refused move has one, a relative move that leaves
the sequence has another one behind it, or that one alone where its target cannot even be
written down, and a block that was cut short has one.  A search skips an element too, but
from one that it has found, and so it never leaves the sequence.
-/

namespace SeqCursor

open Sequence

variable {S α : Type}

/-- A notice as it is written to a log. -/
def Notice.entry (notice : Notice) : Severity × String :=
  (notice.severity, notice.message)

/-- What an operation writes to the log, where the cursor is at `position` in a sequence with
`length` elements. -/
def Operation.log (position : Int) (length : Nat) : Operation α → List (Severity × String)
  | .seek target =>
      if -1 ≤ target ∧ target ≤ length then
        []
      else
        [(.trace, s!"rejected position {target} outside -1..={length}")]
  | .skip move =>
      let target := position + move
      if -1 ≤ target ∧ target ≤ length then
        []
      else if minPosition ≤ target ∧ target ≤ maxPosition then
        [(.trace, s!"rejected position {target} outside -1..={length}"),
          (.debug, s!"skip({move}) from {position} leaves the sequence, moving to end")]
      else
        -- A target that cannot be written down is not asked for, and so not refused.
        [(.debug, s!"skip({move}) from {position} leaves the sequence, moving to end")]
  | .take count =>
      let start := (max position 0).toNat
      if length < start + count then
        [(.trace, s!"get_next({count}) from {start} clamped to {length}")]
      else
        []
  | _ => []

variable [Sequence S α]

/-- What a run of operations writes to the log. -/
def Cursor.log [BEq α] (c : Cursor S) :
    List (Operation α) → Except Fault (List (Severity × String))
  | [] => .ok []
  | operation :: operations => do
      let reply ← c.perform operation
      let later ← reply.cursor.log operations
      return operation.log c.position c.length ++ later

/-- What a step of a session writes to the log, given what it resulted in. -/
def Step.log (session : Session S) (result : StepResult S α) :
    Step α → Except Fault (List (Severity × String))
  | .onCheckedRange base start stop => do
      let s ← session.resolve base
      let length := Sequence.length s
      match result with
      | .refused _ => return [(.debug, s!"rejected range {start}..{stop} over {length} elements")]
      | _ => return []
  | .act slot operation => do
      let c ← session.cursor slot
      return operation.log c.position c.length
  | _ => .ok []

/-- Each step left the notices that were to be written, and no others. -/
inductive Session.Logs : Session S → List (Step α) → List (Session.Effect S α) → Prop where
  | nil {session : Session S} : Logs session [] []
  | cons {session : Session S} {step : Step α} {steps : List (Step α)}
      {effect : Session.Effect S α} {effects : List (Session.Effect S α)} :
      step.log session effect.result = .ok (effect.notices.map Notice.entry) →
      Logs effect.session steps effects → Logs session (step :: steps) (effect :: effects)

namespace PlainCursor

variable {c : PlainCursor S}

theorem entries_seek (c : PlainCursor S) (target : Int) :
    (c.seek target).notices.map Notice.entry =
      (Operation.seek target : Operation α).log c.position c.length := by
  by_cases hrange : -1 ≤ target ∧ target ≤ (c.length : Int)
  · rw [seek_of_range hrange, Operation.log, if_pos hrange]
    rfl
  · rw [seek_of_not_range hrange, Operation.log, if_neg hrange]
    rfl

theorem entries_skip (hc : c.Admissible) (move : Int) :
    (c.skip move).notices.map Notice.entry =
      (Operation.skip move : Operation α).log c.position c.length := by
  by_cases hrange : -1 ≤ c.position + move ∧ c.position + move ≤ (c.length : Int)
  · rw [skip_of_range hc hrange, Operation.log, if_pos hrange]
    rfl
  · rw [Operation.log, if_neg hrange, skip, Position.add?]
    by_cases hsum : minPosition ≤ c.position + move ∧ c.position + move ≤ maxPosition
    · rw [if_pos hsum, if_pos hsum]
      dsimp only
      rw [seek_of_not_range hrange]
      rfl
    · rw [if_neg hsum, if_neg hsum]
      rfl

variable [LawfulSequence S α]

/-- From the element that stopped a scan, a move by one stays within the sequence. -/
theorem notices_skip_scan (hc : c.Admissible) (stops : α → Bool)
    (hstopped : (c.scan stops).1.stopper?.isSome = true) :
    ((c.scan stops).2.skip 1).notices = [] := by
  rcases findIdx_lt_or_eq_length stops c.rest with hfound | hall
  · have hplace := admissible_index hc hfound
    have hnext := hc.moveTo_index (index_lt_length hfound)
    rw [scan_of_lt hc hfound]
    dsimp only
    rw [skip_of_range hplace ⟨hnext.beforeFirst_le, hnext.position_le⟩]
  · rw [scan_of_eq hc hall] at hstopped
    cases hstopped

variable [BEq α]

/-- An operation leaves the notices that are to be written of it. -/
theorem exists_perform_log (hc : c.Admissible) (operation : Operation α) :
    ∃ reply, c.perform operation = .ok reply ∧
      reply.notices.map Notice.entry = operation.log c.position c.length := by
  cases operation with
  | seek target => exact ⟨_, rfl, entries_seek c target⟩
  | skip move => exact ⟨_, rfl, entries_skip hc move⟩
  | take count =>
      have hstart : (max c.position 0).toNat = c.position.toNat := by omega
      rw [perform, LawfulSequence.slice_eq]
      refine ⟨_, rfl, ?_⟩
      rw [Operation.log, hstart]
      change (if c.length < c.position.toNat + count then _ else _ : List Notice).map _ = _
      split <;> rfl
  | skipPast value =>
      -- The move past the element is the one a `skip` makes, notices included.
      have hsilent := notices_skip_scan hc (· == value)
      rw [perform]
      dsimp only
      cases hstopped : (c.scan (· == value)).1.stopper?.isSome with
      | true =>
          refine ⟨_, rfl, ?_⟩
          dsimp only
          rw [hsilent hstopped]
          rfl
      | false => exact ⟨_, rfl, rfl⟩
  | demand =>
      rw [perform]
      cases c.peek <;> exact ⟨_, rfl, rfl⟩
  | accept value =>
      rw [perform]
      cases c.peek.any (· == value) <;> exact ⟨_, rfl, rfl⟩
  | remaining =>
      rw [perform, slice_rest]
      exact ⟨_, rfl, rfl⟩
  | visitRemaining =>
      rw [perform, slice_rest]
      exact ⟨_, rfl, rfl⟩
  | _ => exact ⟨_, rfl, rfl⟩

end PlainCursor

namespace Cursor.Sound

variable {c : Cursor S} [LawfulSequence S α] [BEq α]

theorem exists_perform_log (hc : c.Sound) (operation : Operation α) :
    ∃ reply, c.perform operation = .ok reply ∧ reply.cursor.Sound ∧
      reply.notices.map Notice.entry = operation.log c.position c.length := by
  obtain ⟨plain, hplain, hlog⟩ := PlainCursor.exists_perform_log hc.admissible operation
  have hafter := PlainCursor.sound_locate (hc.admissible.of_perform hplain)
  rw [hc.coherent.length_eq]
  exact ⟨_, hc.perform_of_plain hplain, hafter, hlog⟩

/-- A run leaves the notices that are to be written of its operations, one after the other. -/
theorem exists_run_log (hc : c.Sound) (operations : List (Operation α)) :
    ∃ reply, c.run operations = .ok reply ∧
      c.log operations = .ok (reply.notices.map Notice.entry) := by
  induction operations generalizing c with
  | nil => exact ⟨_, rfl, rfl⟩
  | cons operation operations ih =>
      -- The log of the rest is told from the cursor behind the first operation.
      obtain ⟨reply, hreply, hafter, hentries⟩ := hc.exists_perform_log operation
      obtain ⟨later, hlater, hlog⟩ := ih hafter
      refine ⟨_, run_cons hreply hlater, ?_⟩
      rw [log, hreply]
      change (reply.cursor.log operations >>= _) = _
      rw [hlog, List.map_append, hentries]
      rfl

end Cursor.Sound

namespace Session

variable {session : Session S} [LawfulSequence S α] [BEq α]

theorem delivers_step_log (hsession : session.Sound) (step : Step α) :
    Delivers (session.Lacks step.slots) (fun effect => step.log session effect.result =
      .ok (effect.notices.map Notice.entry)) (session.step step) := by
  cases step with
  | on base =>
      apply (delivers_resolve hsession base).bind
      intro s _
      exact .ok rfl
  | onRange base start stop =>
      apply (delivers_resolve hsession base).bind
      intro s _
      rw [Cursor.onRange_eq]
      exact .ok rfl
  | onCheckedRange base start stop =>
      apply (delivers_resolve hsession base).with_eq.bind
      intro s hs
      rw [Cursor.onCheckedRange_eq]
      simp only [Step.log, hs.1]
      by_cases hrange : stop < start ∨ Sequence.length s < stop
      · rw [if_pos hrange]
        exact .ok rfl
      · rw [if_neg hrange]
        exact .ok rfl
  | copy slot =>
      apply (delivers_cursor hsession List.mem_cons_self).bind
      intro c _
      exact .ok rfl
  | restore slot source =>
      have hsource : source ∈ [slot, source] := List.mem_cons_of_mem slot List.mem_cons_self
      apply (delivers_cursor hsession List.mem_cons_self).bind
      intro _ _
      apply (delivers_cursor hsession hsource).bind
      intro c _
      exact .ok rfl
  | act slot operation =>
      apply (delivers_cursor hsession List.mem_cons_self).with_eq.bind
      intro c hc
      obtain ⟨reply, hreply, -, hlog⟩ := hc.2.exists_perform_log operation
      rw [hreply]
      simp only [Step.log, hc.1]
      exact .ok (congrArg Except.ok hlog.symm)

theorem delivers_run_log (hsession : session.Sound) (steps : List (Step α)) :
    session.RunDelivers steps (Logs session steps) := by
  induction steps generalizing session with
  | nil => exact .ok .nil
  | cons step steps ih =>
      apply runDelivers_cons ((delivers_step hsession step).and (delivers_step_log hsession step))
      intro effect heffect
      apply (ih heffect.1).imp
      intro later hlater
      exact .cons heffect.2 hlater

end Session

variable [LawfulSequence S α] [BEq α]

/-- The log of a run has an entry for each request that was refused or clamped, with its cause
and with the place where it was made, and no others, whatever the operations of a reachable
cursor are and whatever a session opens, copies and restores in between. -/
theorem log_marks_refusals :
    (∀ c : Cursor S, c.Reachable → ∀ operations : List (Operation α),
      ∃ reply, c.run operations = .ok reply ∧
        c.log operations = .ok (reply.notices.map Notice.entry)) ∧
    (∀ s : S, Addressable s → ∀ steps : List (Step α),
      Session.RunDelivers { input := s } steps (Session.Logs { input := s } steps)) := by
  constructor
  · intro c hc operations
    exact hc.sound.exists_run_log operations
  · intro s hs steps
    exact Session.delivers_run_log (Session.sound_start hs) steps

/-- A move whose target cannot be written down, one whose target is refused, a search that
stops at the last element and is silent, and a block cut short, then a session in which an
inverted range is refused. -/
theorem log_marks_refusals_at_extremes :
    (Cursor.mk "aé🦀b" 1 4 3).Reachable ∧
    (∃ reply, (Cursor.mk "aé🦀b" 1 4 3).run
        [.skip maxPosition, .rewind, .skip (-3), .rewind, .skipPast 'b', .take 9] = .ok reply ∧
      reply.notices.map Notice.entry =
        [(.debug, "skip(9223372036854775807) from 1 leaves the sequence, moving to end"),
          (.trace, "rejected position -4 outside -1..=4"),
          (.debug, "skip(-3) from -1 leaves the sequence, moving to end"),
          (.trace, "get_next(9) from 4 clamped to 4")]) ∧
    Addressable "aé🦀b" ∧
    (Session.run { input := "aé🦀b" }
      [.onCheckedRange .input 3 2, .on .input, .act 0 (.skip (-3))]).isOk ∧
    Session.RunDelivers { input := "aé🦀b" }
      [.onCheckedRange .input 3 2, .on .input, .act 0 (.skip (-3))]
      (Session.Logs { input := "aé🦀b" }
        [.onCheckedRange .input 3 2, .on .input, .act 0 (.skip (-3))]) := by
  have htext : Addressable "aé🦀b" := Text.addressable_mixed_widths
  have hmark : (Cursor.mk "aé🦀b" 1 4 3).Reachable :=
    Cursor.reachable_mixed_widths (by decide +kernel)
  have hentries : ((Cursor.mk "aé🦀b" 1 4 3).log
      [.skip maxPosition, .rewind, .skip (-3), .rewind, .skipPast 'b', .take 9]).toOption =
        some [(.debug, "skip(9223372036854775807) from 1 leaves the sequence, moving to end"),
          (.trace, "rejected position -4 outside -1..=4"),
          (.debug, "skip(-3) from -1 leaves the sequence, moving to end"),
          (.trace, "get_next(9) from 4 clamped to 4")] := by
    decide +kernel
  obtain ⟨reply, hreply, hlog⟩ := log_marks_refusals.1 (Cursor.mk "aé🦀b" 1 4 3) hmark
    [.skip maxPosition, .rewind, .skip (-3), .rewind, .skipPast 'b', .take 9]
  rw [hlog] at hentries
  exact ⟨hmark, ⟨reply, hreply, Option.some.inj hentries⟩, htext, by decide +kernel,
    log_marks_refusals.2 "aé🦀b" htext _⟩

end SeqCursor
