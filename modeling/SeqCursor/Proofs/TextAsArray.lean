import Mathlib.Data.List.Forall2
import SeqCursor.Proofs.Coding
import SeqCursor.Proofs.SessionInvariant

/-!
# Text and arrays agree

Text finds its elements by byte offsets, an array finds them by index.  Nothing
that a session answers depends on this: on text and on the array of its coded
characters, every script is answered alike.  Operations of a cursor commute with
coding because those of the plain cursor at its place do; the offset is put beside
the result on either side.
-/

namespace SeqCursor

open Sequence

variable {S T α β : Type}

/-- The same step of a session, with the values sought put into code. -/
def Step.map (code : α → β) : Step α → Step β
  | .on base => .on base
  | .onRange base start stop => .onRange base start stop
  | .onCheckedRange base start stop => .onCheckedRange base start stop
  | .copy slot => .copy slot
  | .restore slot source => .restore slot source
  | .act slot operation => .act slot (operation.map code)

/-- The same result of a step, with what it answered put into code. -/
def StepResult.map (part : S → T) (code : α → β) : StepResult S α → StepResult T β
  | .opened slot => .opened slot
  | .refused error => .refused error
  | .restored => .restored
  | .answered answer => .answered (answer.map part code)

variable [Sequence S α]

/-- The cursor at the same position of the coded sequence, with the offset that
belongs to it there. -/
def Cursor.coded (code : α → β) (c : Cursor S) : Cursor (Array β) :=
  (c.plain.coded code).locate

namespace Session

def coded (code : α → β) (session : Session S) : Session (Array β) :=
  ⟨Sequence.coded code session.input, session.cursors.map (Cursor.coded code)⟩

def Effect.coded (code : α → β) (effect : Effect S α) : Effect (Array β) β :=
  ⟨effect.result.map (Sequence.coded code) code, effect.session.coded code,
    effect.subject?, effect.notices⟩

end Session

/-- Steps that commute with coding one after the other commute with it together. -/
theorem Delivers.bind_coded {β β' γ γ' : Type} {outcome : Except Fault β}
    {unused : Nat → Prop} {property : β → Prop} {coded : β → β'} {goal : γ → γ'}
    {continueWith : β → Except Fault γ} {continueCoded : β' → Except Fault γ'}
    (houtcome : Delivers unused property outcome)
    (hcontinue : ∀ result, property result →
      continueCoded (coded result) = (continueWith result).map goal) :
    (outcome.map coded >>= continueCoded) = (outcome >>= continueWith).map goal := by
  cases houtcome with
  | ok hresult => exact hcontinue _ hresult
  | unknownSlot hslot => rfl

variable [LawfulSequence S α] {code : α → β}

namespace Cursor

omit [LawfulSequence S α] in
theorem coded_on (s : S) : (on s).coded code = on (Sequence.coded code s) :=
  PlainCursor.locate_on (Sequence.coded code s)

theorem perform_coded [BEq α] [BEq β] {c : Cursor S} (hc : c.Sound)
    (hcode : ∀ left right : α, (code left == code right) = (left == right))
    (operation : Operation α) :
    (c.coded code).perform (operation.map code) =
      (c.perform operation).map (Reply.coded (Cursor.coded code) code) := by
  have hplain := hc.admissible
  have hreal := PlainCursor.perform_locate hplain operation
  rw [hc.locate_plain] at hreal
  obtain ⟨reply, hreply, -, -⟩ := PlainCursor.exists_perform hplain operation
  calc
    (c.coded code).perform (operation.map code) =
        ((c.plain.coded code).perform (operation.map code)).map
          (Reply.mapCursor PlainCursor.locate) :=
      PlainCursor.perform_locate (PlainCursor.admissible_coded code hplain) _
    _ = ((c.plain.perform operation).map (Reply.coded (PlainCursor.coded code) code)).map
          (Reply.mapCursor PlainCursor.locate) := by
      rw [PlainCursor.perform_coded hplain hcode]
    _ = (c.perform operation).map (Reply.coded (Cursor.coded code) code) := by
      rw [hreal, hreply]
      rfl

theorem remaining_coded {c : Cursor S} (hc : c.Sound) :
    (c.coded code).remaining = c.remaining.map (Sequence.coded code) := by
  have hplain := hc.admissible
  have hreal := PlainCursor.remaining_locate hplain
  rw [hc.locate_plain] at hreal
  calc
    (c.coded code).remaining =
        slice (Sequence.coded code c.sequence) (c.position + 1).toNat
          (c.plain.coded code).length :=
      PlainCursor.remaining_locate (PlainCursor.admissible_coded code hplain)
    _ = (slice c.sequence (c.position + 1).toNat c.plain.length).map (Sequence.coded code) := by
      rw [PlainCursor.length_coded, slice_coded]
    _ = c.remaining.map (Sequence.coded code) := by
      rw [hreal]
      rfl

/-- The cursor on a range of the coded sequence is the coded cursor on the range. -/
theorem coded_slice (s : S) (start stop : Nat) :
    (on (ofList (((toList s).take stop).drop start) : S)).coded code =
      on (ofList (((toList (Sequence.coded code s)).take stop).drop start)) := by
  rw [coded_on, coded_ofList, toList_coded, List.map_drop, List.map_take]

end Cursor

namespace Session

variable {session : Session S}

omit [LawfulSequence S α] in
theorem cursor_coded (slot : Nat) :
    (session.coded code).cursor slot = (session.cursor slot).map (Cursor.coded code) := by
  simp only [cursor, coded, Array.getElem?_map]
  cases session.cursors[slot]? <;> rfl

theorem resolve_coded (hsession : session.Sound) (base : Base) :
    (session.coded code).resolve base =
      (session.resolve base).map (Sequence.coded code) := by
  cases base with
  | input => rfl
  | contents slot =>
      change ((session.coded code).cursor slot >>= _) = _
      rw [cursor_coded]
      apply (delivers_cursor hsession (List.mem_singleton_self slot)).bind_coded
      intro c hc
      rfl
  | remaining slot =>
      change ((session.coded code).cursor slot >>= _) = _
      rw [cursor_coded]
      apply (delivers_cursor hsession (List.mem_singleton_self slot)).bind_coded
      intro c hc
      exact Cursor.remaining_coded hc

omit [LawfulSequence S α] in
theorem opened_coded (c : Cursor S) (notices : List Notice) :
    (session.coded code).opened (c.coded code) notices =
      (session.opened c notices : Effect S α).coded code := by
  simp only [opened, coded, Effect.coded, Array.size_map, Array.map_push]
  rfl

omit [LawfulSequence S α] in
theorem replace_coded (slot : Nat) (c : Cursor S) :
    (session.coded code).replace slot (c.coded code) = (session.replace slot c).coded code := by
  simp only [replace, coded, Array.map_setIfInBounds]

variable [BEq α] [BEq β]

/-- A step of a session commutes with coding. -/
theorem step_coded (hsession : session.Sound)
    (hcode : ∀ left right : α, (code left == code right) = (left == right)) (step : Step α) :
    (session.coded code).step (step.map code) =
      (session.step step).map (Effect.coded code) := by
  cases step with
  | on base =>
      change ((session.coded code).resolve base >>= _) = _
      rw [resolve_coded hsession]
      apply (delivers_resolve hsession base).bind_coded
      intro s hs
      rw [← Cursor.coded_on]
      exact congrArg Except.ok (opened_coded (Cursor.on s) [])
  | onRange base start stop =>
      change ((session.coded code).resolve base >>= _) = _
      rw [resolve_coded hsession]
      apply (delivers_resolve hsession base).bind_coded
      intro s hs
      rw [Cursor.onRange_eq, Cursor.onRange_eq, ← Cursor.coded_slice]
      exact congrArg Except.ok (opened_coded _ [])
  | onCheckedRange base start stop =>
      change ((session.coded code).resolve base >>= _) = _
      rw [resolve_coded hsession]
      apply (delivers_resolve hsession base).bind_coded
      intro s hs
      rw [Cursor.onCheckedRange_eq, Cursor.onCheckedRange_eq, Sequence.length_coded]
      by_cases hrange : stop < start ∨ Sequence.length s < stop
      · rw [if_pos hrange, if_pos hrange]
        rfl
      · rw [if_neg hrange, if_neg hrange, ← Cursor.coded_slice]
        exact congrArg Except.ok (opened_coded _ [])
  | copy slot =>
      change ((session.coded code).cursor slot >>= _) = _
      rw [cursor_coded]
      apply (delivers_cursor hsession (List.mem_singleton_self slot)).bind_coded
      intro c hc
      exact congrArg Except.ok (opened_coded c [])
  | restore slot source =>
      change ((session.coded code).cursor slot >>= _) = _
      rw [cursor_coded]
      apply (delivers_cursor hsession (List.mem_singleton_self slot)).bind_coded
      intro c hc
      rw [cursor_coded]
      apply (delivers_cursor hsession (List.mem_singleton_self source)).bind_coded
      intro d hd
      rw [replace_coded]
      rfl
  | act slot operation =>
      change ((session.coded code).cursor slot >>= _) = _
      rw [cursor_coded]
      apply (delivers_cursor hsession (List.mem_singleton_self slot)).bind_coded
      intro c hc
      obtain ⟨reply, hreply, -⟩ := hc.perform operation
      rw [Cursor.perform_coded hc hcode, hreply]
      change Except.ok (Effect.mk _ ((session.coded code).replace slot (reply.cursor.coded code))
        _ _) = _
      rw [replace_coded]
      rfl

/-- A whole run of a session commutes with coding. -/
theorem run_coded (hsession : session.Sound)
    (hcode : ∀ left right : α, (code left == code right) = (left == right))
    (steps : List (Step α)) :
    (session.coded code).run (steps.map (Step.map code)) =
      (session.run steps).map (List.map (Effect.coded code)) := by
  induction steps generalizing session with
  | nil => rfl
  | cons step steps ih =>
      change ((session.coded code).step (step.map code) >>= _) = _
      rw [step_coded hsession hcode]
      apply (delivers_step hsession step).bind_coded
      intro effect heffect
      change ((effect.session.coded code).run (steps.map (Step.map code)) >>= _) = _
      rw [ih heffect]
      apply (delivers_run heffect steps).bind_coded
      intro later hlater
      rfl

end Session

/-! ## What an onlooker sees -/

/-- All that can be seen of a cursor without moving it is seen of the other one in
code. -/
structure Cursor.LooksAlike (code : α → β) (c : Cursor S) (d : Cursor (Array β)) : Prop where
  position : d.position = c.position
  atEnd : d.atEnd = c.atEnd
  isEmpty : d.isEmpty = c.isEmpty
  contents : d.contents = Sequence.coded code c.contents
  current : d.current = c.current.map code
  peek : ∃ element?, c.peek = .ok element? ∧ d.peek = .ok (element?.map code)
  remaining : ∃ rest, c.remaining = .ok rest ∧ d.remaining = .ok (Sequence.coded code rest)

/-- A step brought about the same on both sides: the same result in code, notices
and slot, and cursors that look alike. -/
structure Session.Effect.Corresponds (code : α → β) (left : Effect S α)
    (right : Effect (Array β) β) : Prop where
  result : right.result = left.result.map (Sequence.coded code) code
  subject : right.subject? = left.subject?
  notices : right.notices = left.notices
  size : right.session.cursors.size = left.session.cursors.size
  cursors : ∀ (slot : Nat) (c : Cursor S) (d : Cursor (Array β)),
    left.session.cursors[slot]? = some c → right.session.cursors[slot]? = some d →
      c.LooksAlike code d

theorem Cursor.looksAlike_coded {c : Cursor S} (hc : c.Sound) :
    c.LooksAlike code (c.coded code) := by
  have hplain := hc.admissible
  have hcoded := PlainCursor.admissible_coded code hplain
  have hlocate := hc.locate_plain
  constructor
  · rfl
  · calc
      (c.coded code).atEnd = (c.plain.coded code).atEnd := PlainCursor.atEnd_locate hcoded
      _ = c.plain.atEnd := PlainCursor.atEnd_coded code c.plain
      _ = c.plain.locate.atEnd := (PlainCursor.atEnd_locate hplain).symm
      _ = c.atEnd := by rw [hlocate]
  · change ((c.plain.coded code).length == 0) = (c.length == 0)
    rw [PlainCursor.length_coded, hc.coherent.length_eq]
    rfl
  · rfl
  · calc
      (c.coded code).current = (c.plain.coded code).current :=
        PlainCursor.current_locate (c.plain.coded code)
      _ = c.plain.current.map code := PlainCursor.current_coded code c.plain
      _ = c.plain.locate.current.map code := by rw [PlainCursor.current_locate]
      _ = c.current.map code := by rw [hlocate]
  · refine ⟨c.plain.peek, ?_, ?_⟩
    · rw [← PlainCursor.peek_locate hplain, hlocate]
    · rw [← PlainCursor.peek_coded]
      exact PlainCursor.peek_locate hcoded
  · obtain ⟨rest, hrest, -⟩ := hc.remaining
    refine ⟨rest, hrest, ?_⟩
    rw [remaining_coded hc, hrest]
    rfl

theorem Session.Effect.corresponds_coded {effect : Effect S α} (heffect : effect.session.Sound) :
    effect.Corresponds code (effect.coded code) := by
  refine ⟨rfl, rfl, rfl, Array.size_map, ?_⟩
  intro slot c d hc hd
  change (effect.session.cursors.map (Cursor.coded code))[slot]? = some d at hd
  rw [Array.getElem?_map, hc, Option.map_some, Option.some.injEq] at hd
  rw [← hd]
  exact Cursor.looksAlike_coded (heffect.cursors c (Array.mem_of_getElem? hc))

/-- Any script answers alike over a text and over the array of its characters, taken
as they are or in a code that keeps equality both ways: step by step the same
results, notices, positions and ends, and the same elements ahead, at the position
and left to read.  A script stops early on both sides or on neither, and only at a
slot that is not in use. -/
theorem text_agrees_with_array (s : String) {γ : Type} [BEq γ] (encode : Char → γ)
    (hencode : ∀ left right : Char, (encode left == encode right) = (left == right))
    (hlength : (s.length : Int) < maxPosition) (hstorage : s.utf8ByteSize ≤ maxIndex)
    (steps : List (Step Char)) :
    (∃ slot, Session.StopsAt { input := s } steps slot ∧
      Session.run { input := s } steps = .error (.unknownSlot slot) ∧
      Session.run { input := (s.toList.map encode).toArray } (steps.map (Step.map encode)) =
        .error (.unknownSlot slot)) ∨
    ∃ effects effectsCoded,
      Session.run { input := s } steps = .ok effects ∧
      Session.run { input := (s.toList.map encode).toArray } (steps.map (Step.map encode)) =
        .ok effectsCoded ∧
      List.Forall₂ (Session.Effect.Corresponds encode) effects effectsCoded := by
  have hsound : Session.Sound { input := s } :=
    Session.sound_start (Text.addressable hlength hstorage)
  have hdelivers : Delivers (Session.StopsAt { input := s } steps) _ _ :=
    Session.delivers_run hsound steps
  have hstart : Session.coded encode { input := s } =
      { input := (s.toList.map encode).toArray } :=
    congrArg (Session.mk _) Array.map_empty
  rw [← hstart, Session.run_coded hsound hencode steps]
  generalize Session.run { input := s } steps = outcome at hdelivers ⊢
  cases hdelivers with
  | unknownSlot hslot => exact Or.inl ⟨_, hslot, rfl, rfl⟩
  | @ok effects heffects =>
      refine Or.inr ⟨effects, effects.map (Session.Effect.coded encode), rfl, rfl, ?_⟩
      rw [List.forall₂_map_right_iff, List.forall₂_same]
      intro effect heffect
      exact Session.Effect.corresponds_coded (heffects effect heffect)

/-- Characters of one to four bytes beside their code points, over a stream on what
another has left, an inverted range and values that are found or not.  The script is
answered to its end. -/
theorem text_agrees_with_array_code_points :
    (∀ left right : Char, (left.toNat == right.toNat) = (left == right)) ∧
    ("aé🦀b".length : Int) < maxPosition ∧ "aé🦀b".utf8ByteSize ≤ maxIndex ∧
    (Session.run { input := "aé🦀b" }
      [.on .input, .act 0 (.upTo 'é'), .on (.remaining 0), .onCheckedRange .input 3 1,
        .act 1 (.skipPast '🦀'), .act 1 (.accept 'x')]).isOk ∧
    ∃ effects effectsCoded,
      Session.run { input := "aé🦀b" }
        [.on .input, .act 0 (.upTo 'é'), .on (.remaining 0), .onCheckedRange .input 3 1,
          .act 1 (.skipPast '🦀'), .act 1 (.accept 'x')] = .ok effects ∧
      Session.run { input := ("aé🦀b".toList.map Char.toNat).toArray }
        ([.on .input, .act 0 (.upTo 'é'), .on (.remaining 0), .onCheckedRange .input 3 1,
          .act 1 (.skipPast '🦀'), .act 1 (.accept 'x')].map (Step.map Char.toNat)) =
            .ok effectsCoded ∧
      List.Forall₂ (Session.Effect.Corresponds Char.toNat) effects effectsCoded := by
  have hcode (left right : Char) : (left.toNat == right.toNat) = (left == right) := by
    rw [Bool.eq_iff_iff, beq_iff_eq, beq_iff_eq, Char.toNat_inj]
  have hok : (Session.run { input := "aé🦀b" }
      [.on .input, .act 0 (.upTo 'é'), .on (.remaining 0), .onCheckedRange .input 3 1,
        .act 1 (.skipPast '🦀'), .act 1 (.accept 'x')]).isOk := by
    decide +kernel
  refine ⟨hcode, by decide, by decide, hok, ?_⟩
  obtain ⟨slot, -, hstopped, -⟩ | halike :=
    text_agrees_with_array "aé🦀b" Char.toNat hcode (by decide) (by decide)
      [.on .input, .act 0 (.upTo 'é'), .on (.remaining 0), .onCheckedRange .input 3 1,
        .act 1 (.skipPast '🦀'), .act 1 (.accept 'x')]
  · rw [hstopped] at hok
    cases hok
  · exact halike

end SeqCursor
