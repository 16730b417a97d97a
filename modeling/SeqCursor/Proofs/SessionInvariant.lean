import SeqCursor.Proofs.PlainRefinement
import SeqCursor.Session

/-!
# What a session keeps

Every cursor of a session is coherent, whatever it was opened on and whatever was
asked of it.  Each step keeps this, and a step can go wrong in one way only, by
naming a slot that is not in use.  So a run is answered to its end, or it stops where
the first such step is.
-/

namespace SeqCursor

open Sequence

/-- The outcome has the property, unless a slot was named that is unused.  No other
fault comes up. -/
inductive Delivers {β : Type} (unused : Nat → Prop) (property : β → Prop) :
    Except Fault β → Prop where
  | ok {result : β} : property result → Delivers unused property (.ok result)
  | unknownSlot {slot : Nat} : unused slot → Delivers unused property (.error (.unknownSlot slot))

namespace Delivers

variable {β γ : Type} {unused : Nat → Prop} {property : β → Prop} {outcome : Except Fault β}

theorem bind {goal : γ → Prop} {continueWith : β → Except Fault γ}
    (houtcome : Delivers unused property outcome)
    (hcontinue : ∀ result, property result → Delivers unused goal (continueWith result)) :
    Delivers unused goal (outcome >>= continueWith) := by
  cases houtcome with
  | ok hresult => exact hcontinue _ hresult
  | unknownSlot hslot => exact .unknownSlot hslot

theorem imp {goal : β → Prop} (houtcome : Delivers unused property outcome)
    (himp : ∀ result, property result → goal result) : Delivers unused goal outcome := by
  cases houtcome with
  | ok hresult => exact .ok (himp _ hresult)
  | unknownSlot hslot => exact .unknownSlot hslot

theorem widen {wider : Nat → Prop} (houtcome : Delivers unused property outcome)
    (hwider : ∀ slot, unused slot → wider slot) : Delivers wider property outcome := by
  cases houtcome with
  | ok hresult => exact .ok hresult
  | unknownSlot hslot => exact .unknownSlot (hwider _ hslot)

/-- The property may tell how the outcome came about. -/
theorem with_eq (houtcome : Delivers unused property outcome) :
    Delivers unused (fun result => outcome = .ok result ∧ property result) outcome := by
  cases houtcome with
  | ok hresult => exact .ok ⟨rfl, hresult⟩
  | unknownSlot hslot => exact .unknownSlot hslot

theorem of_eq_ok {result : β} (houtcome : Delivers unused property outcome)
    (hok : outcome = .ok result) : property result := by
  subst hok
  cases houtcome with
  | ok hresult => exact hresult

theorem and {other : β → Prop} (hleft : Delivers unused property outcome)
    (hright : Delivers unused other outcome) :
    Delivers unused (fun result => property result ∧ other result) outcome := by
  cases hleft with
  | ok hresult => exact .ok ⟨hresult, hright.of_eq_ok rfl⟩
  | unknownSlot hslot => exact .unknownSlot hslot

end Delivers

variable {S α : Type} [Sequence S α]

/-! ## Slots that are not in use -/

/-- The slots that a base names. -/
def Base.slots : Base → List Nat
  | .input => []
  | .contents slot => [slot]
  | .remaining slot => [slot]

/-- The slots that a step names. -/
def Step.slots : Step α → List Nat
  | .on base => base.slots
  | .onRange base _ _ => base.slots
  | .onCheckedRange base _ _ => base.slots
  | .copy slot => [slot]
  | .restore slot source => [slot, source]
  | .act slot _ => [slot]

namespace Session

/-- One of the slots named is `slot`, and the session keeps no cursor there. -/
def Lacks (session : Session S) (named : List Nat) (slot : Nat) : Prop :=
  slot ∈ named ∧ session.cursors.size ≤ slot

variable [BEq α]

/-- The steps are taken one after the other, up to one that names `slot`, where no cursor
is kept by then. -/
inductive StopsAt : Session S → List (Step α) → Nat → Prop where
  | here {session : Session S} {step : Step α} {steps : List (Step α)} {slot : Nat} :
      session.Lacks step.slots slot → StopsAt session (step :: steps) slot
  | later {session : Session S} {step : Step α} {steps : List (Step α)}
      {effect : Effect S α} {slot : Nat} :
      session.step step = .ok effect → StopsAt effect.session steps slot →
        StopsAt session (step :: steps) slot

/-- The run is answered to its end and its effects have the property, unless it stops at a
slot that is not in use. -/
def RunDelivers (session : Session S) (steps : List (Step α))
    (property : List (Effect S α) → Prop) : Prop :=
  Delivers (session.StopsAt steps) property (session.run steps)

/-- A run stops at its first step, or wherever the run of the other steps does. -/
theorem runDelivers_cons {session : Session S} {step : Step α} {steps : List (Step α)}
    {property : Effect S α → Prop} {goal : List (Effect S α) → Prop}
    (hstep : Delivers (session.Lacks step.slots) property (session.step step))
    (hlater : ∀ effect, property effect →
      effect.session.RunDelivers steps fun later => goal (effect :: later)) :
    session.RunDelivers (step :: steps) goal := by
  apply (hstep.widen fun _ => .here).with_eq.bind
  intro effect heffect
  apply ((hlater effect heffect.2).widen fun _ => .later heffect.1).bind
  intro later hgoal
  exact .ok hgoal

end Session

/-! ## Sound cursors -/

/-- A cursor on an addressable sequence whose cached offset is right. -/
structure Cursor.Sound (c : Cursor S) : Prop where
  coherent : c.Coherent
  addressable : Addressable c.sequence

theorem PlainCursor.sound_locate {c : PlainCursor S} (hc : c.Admissible) : c.locate.Sound :=
  ⟨coherent_locate hc, hc.addressable⟩

namespace Cursor.Sound

variable {c : Cursor S}

theorem admissible (hc : c.Sound) : c.plain.Admissible :=
  hc.coherent.admissible_plain hc.addressable

theorem locate_plain (hc : c.Sound) : c.plain.locate = c :=
  hc.coherent.locate_plain

variable [LawfulSequence S α]

theorem on {s : S} (hs : Addressable s) : (Cursor.on s).Sound := by
  rw [← PlainCursor.locate_on]
  exact PlainCursor.sound_locate (PlainCursor.Admissible.on hs)

theorem perform [BEq α] (hc : c.Sound) (operation : Operation α) :
    ∃ reply, c.perform operation = .ok reply ∧ reply.cursor.Sound := by
  obtain ⟨reply, hreply, hadmissible, -⟩ := PlainCursor.exists_perform hc.admissible operation
  refine ⟨reply.mapCursor PlainCursor.locate, ?_, PlainCursor.sound_locate hadmissible⟩
  have hperform := PlainCursor.perform_locate hc.admissible operation
  rw [hc.locate_plain, hreply] at hperform
  exact hperform

theorem remaining_eq (hc : c.Sound) : c.remaining = .ok (ofList c.plain.rest) := by
  have hremaining := PlainCursor.remaining_locate hc.admissible
  rwa [hc.locate_plain, PlainCursor.slice_rest] at hremaining

theorem peek_eq (hc : c.Sound) : c.peek = .ok c.plain.peek := by
  have hpeek := PlainCursor.peek_locate hc.admissible
  rwa [hc.locate_plain] at hpeek

theorem next_eq (hc : c.Sound) : c.next = .ok ⟨c.plain.peek, c.plain.advance.locate, []⟩ := by
  have hnext := PlainCursor.next_locate hc.admissible
  rwa [hc.locate_plain] at hnext

theorem demand_eq (hc : c.Sound) :
    c.demand = .ok
      (match c.plain.peek with
      | some element => ⟨.ok element, c.plain.advance.locate, []⟩
      | none => ⟨.error (.endOfStream c.position), c, []⟩) := by
  have hdemand := PlainCursor.demand_locate hc.admissible
  rwa [hc.locate_plain] at hdemand

theorem accept_eq [BEq α] (hc : c.Sound) (value : α) :
    c.accept value = .ok
      (if c.plain.peek.any (· == value) then ⟨true, c.plain.advance.locate, []⟩
      else ⟨false, c, []⟩) := by
  have haccept := PlainCursor.accept_locate hc.admissible value
  rwa [hc.locate_plain] at haccept

theorem nextMatches_eq [BEq α] (hc : c.Sound) (value : α) :
    c.nextMatches value =
      .ok ⟨c.plain.peek.any (· == value), c.plain.advance.locate, []⟩ := by
  have hmatches := PlainCursor.nextMatches_locate hc.admissible value
  rwa [hc.locate_plain] at hmatches

theorem remaining (hc : c.Sound) : ∃ rest, c.remaining = .ok rest ∧ Addressable rest := by
  have hremaining := PlainCursor.remaining_locate hc.admissible
  rw [hc.locate_plain, LawfulSequence.slice_eq] at hremaining
  exact ⟨_, hremaining, hc.addressable.slice _ _⟩

end Cursor.Sound

namespace Cursor

variable [LawfulSequence S α]

theorem onRange_eq (s : S) (start stop : Nat) :
    onRange s start stop = .ok (on (ofList (((toList s).take stop).drop start) : S)) := by
  rw [onRange, LawfulSequence.slice_eq]
  rfl

theorem onCheckedRange_eq (s : S) (start stop : Nat) :
    onCheckedRange s start stop = .ok
      (if stop < start ∨ Sequence.length s < stop then
        ⟨.error (.rangeOutOfBounds start stop (Sequence.length s)),
          [.rejectedRange start stop (Sequence.length s)]⟩
      else
        ⟨.ok (on (ofList (((toList s).take stop).drop start) : S)), []⟩) := by
  simp only [onCheckedRange, onRange_eq]
  by_cases hrange : stop < start ∨ Sequence.length s < stop
  · rw [if_pos hrange, if_pos hrange]
  · rw [if_neg hrange, if_neg hrange]
    rfl

end Cursor

/-! ## Sound sessions -/

namespace Session

/-- Every cursor of the session is sound. -/
structure Sound (session : Session S) : Prop where
  addressable : Addressable session.input
  cursors : ∀ c ∈ session.cursors, c.Sound

variable {session : Session S}

theorem sound_start {s : S} (hs : Addressable s) : Sound { input := s } := by
  refine ⟨hs, ?_⟩
  intro c hc
  simp at hc

theorem sound_opened (hsession : session.Sound) {c : Cursor S} (hc : c.Sound)
    (notices : List Notice) :
    (session.opened c notices : Effect S α).session.Sound := by
  refine ⟨hsession.addressable, ?_⟩
  intro d hd
  rcases Array.mem_push.mp hd with hold | hnew
  · exact hsession.cursors d hold
  · exact hnew ▸ hc

theorem sound_replace (hsession : session.Sound) {c : Cursor S} (hc : c.Sound) (slot : Nat) :
    (session.replace slot c).Sound := by
  refine ⟨hsession.addressable, ?_⟩
  intro d hd
  rcases Array.mem_or_eq_of_mem_setIfInBounds hd with hold | hnew
  · exact hsession.cursors d hold
  · exact hnew ▸ hc

theorem delivers_cursor (hsession : session.Sound) {named : List Nat} {slot : Nat}
    (hnamed : slot ∈ named) :
    Delivers (session.Lacks named) Cursor.Sound (session.cursor slot) := by
  rw [cursor]
  cases hslot : session.cursors[slot]? with
  | none => exact .unknownSlot ⟨hnamed, Array.getElem?_eq_none_iff.mp hslot⟩
  | some c => exact .ok (hsession.cursors c (Array.mem_of_getElem? hslot))

variable [LawfulSequence S α]

theorem delivers_resolve (hsession : session.Sound) (base : Base) :
    Delivers (session.Lacks base.slots) Addressable (session.resolve base) := by
  cases base with
  | input => exact .ok hsession.addressable
  | contents slot =>
      apply (delivers_cursor hsession List.mem_cons_self).bind
      intro c hc
      exact .ok hc.addressable
  | remaining slot =>
      apply (delivers_cursor hsession List.mem_cons_self).bind
      intro c hc
      obtain ⟨rest, hrest, haddressable⟩ := hc.remaining
      rw [hrest]
      exact .ok haddressable

/-- A step keeps every cursor of the session sound, and fails only where it names a slot
that is not in use. -/
theorem delivers_step [BEq α] (hsession : session.Sound) (step : Step α) :
    Delivers (session.Lacks step.slots) (fun effect => effect.session.Sound)
      (session.step step) := by
  cases step with
  | on base =>
      apply (delivers_resolve hsession base).bind
      intro s hs
      exact .ok (sound_opened hsession (Cursor.Sound.on hs) [])
  | onRange base start stop =>
      apply (delivers_resolve hsession base).bind
      intro s hs
      rw [Cursor.onRange_eq]
      exact .ok (sound_opened hsession (Cursor.Sound.on (hs.slice start stop)) [])
  | onCheckedRange base start stop =>
      apply (delivers_resolve hsession base).bind
      intro s hs
      rw [Cursor.onCheckedRange_eq]
      by_cases hrange : stop < start ∨ Sequence.length s < stop
      · rw [if_pos hrange]
        exact .ok hsession
      · rw [if_neg hrange]
        exact .ok (sound_opened hsession (Cursor.Sound.on (hs.slice start stop)) [])
  | copy slot =>
      apply (delivers_cursor hsession List.mem_cons_self).bind
      intro c hc
      exact .ok (sound_opened hsession hc [])
  | restore slot source =>
      have hsource : source ∈ [slot, source] := List.mem_cons_of_mem slot List.mem_cons_self
      apply (delivers_cursor hsession List.mem_cons_self).bind
      intro _ _
      apply (delivers_cursor hsession hsource).bind
      intro c hc
      exact .ok (sound_replace hsession hc slot)
  | act slot operation =>
      apply (delivers_cursor hsession List.mem_cons_self).bind
      intro c hc
      obtain ⟨reply, hreply, hsound⟩ := hc.perform operation
      rw [hreply]
      exact .ok (sound_replace hsession hsound slot)

/-- After every step of a run, every cursor is sound. -/
theorem delivers_run [BEq α] (hsession : session.Sound) (steps : List (Step α)) :
    session.RunDelivers steps fun effects => ∀ effect ∈ effects, effect.session.Sound := by
  induction steps generalizing session with
  | nil => exact .ok fun effect heffect => absurd heffect List.not_mem_nil
  | cons step steps ih =>
      apply runDelivers_cons (delivers_step hsession step)
      intro effect heffect
      apply (ih heffect).imp
      intro later hlater
      exact List.forall_mem_cons.mpr ⟨heffect, hlater⟩

end Session

/-- A cursor that some session on an addressable input comes to keep. -/
def Cursor.Reachable [BEq α] (c : Cursor S) : Prop :=
  ∃ (input : S) (steps : List (Step α)) (effects : List (Session.Effect S α)),
    Addressable input ∧ Session.run { input := input } steps = .ok effects ∧
      ∃ effect ∈ effects, c ∈ effect.session.cursors

namespace Cursor

variable [BEq α]

theorem reachable_on {s : S} (hs : Addressable s) : (on s).Reachable := by
  refine ⟨s, [.on .input], _, hs, rfl, _, List.mem_singleton.mpr rfl, ?_⟩
  exact Array.mem_push_self

theorem Reachable.sound [LawfulSequence S α] {c : Cursor S} (hc : c.Reachable) : c.Sound := by
  obtain ⟨input, steps, effects, hinput, hrun, effect, heffect, hkept⟩ := hc
  have hdelivers := Session.delivers_run (Session.sound_start hinput) steps
  exact (hdelivers.of_eq_ok hrun effect heffect).cursors c hkept

end Cursor

/-- What holds of every cursor on text.  The cached offset counts the bytes of the
characters up to the position, that one included; it lies on a boundary between
characters, and is the size of the text where no character follows. -/
structure Text.KeepsOffset (c : Cursor String) : Prop where
  length_eq : c.length = c.contents.length
  position_ge : -1 ≤ c.position
  position_le : c.position ≤ c.length
  offset_eq : c.offset = Text.offsetOf c.contents (c.position + 1).toNat
  offset_eq_utf8ByteSize :
    c.offset = (String.ofList (c.contents.toList.take (c.position + 1).toNat)).utf8ByteSize
  boundary : String.Pos.Raw.IsValid c.contents ⟨c.offset⟩
  offset_at_end :
    c.contents.length ≤ (c.position + 1).toNat → c.offset = c.contents.utf8ByteSize

/-- What holds of every cursor on an array.  The cached offset is the index behind
the position, held at the size. -/
structure Indexed.KeepsOffset (c : Cursor (Array α)) : Prop where
  length_eq : c.length = c.contents.size
  position_ge : -1 ≤ c.position
  position_le : c.position ≤ c.length
  offset_eq : c.offset = offsetOf c.contents (c.position + 1).toNat
  offset_eq_min : c.offset = min (c.position + 1).toNat c.contents.size

theorem Text.keepsOffset_of_coherent {c : Cursor String} (hc : c.Coherent) :
    Text.KeepsOffset c := by
  have hoffset : c.offset = Text.offsetOf c.contents (c.position + 1).toNat := hc.offset_eq
  constructor
  · exact hc.length_eq
  · exact hc.beforeFirst_le
  · rw [hc.length_eq]
    exact hc.position_le
  · exact hoffset
  · rw [hoffset, Text.offsetOf_eq]
  · rw [hoffset]
    exact (c.contents.startPos.nextn (c.position + 1).toNat).isValid
  · intro hlast
    rw [hoffset, Text.offsetOf_of_length_le hlast]

theorem Indexed.keepsOffset_of_coherent {c : Cursor (Array α)} (hc : c.Coherent) :
    Indexed.KeepsOffset c := by
  constructor
  · exact hc.length_eq
  · exact hc.beforeFirst_le
  · rw [hc.length_eq]
    exact hc.position_le
  · exact hc.offset_eq
  · exact hc.offset_eq

/-- Whatever is opened, copied, restored and asked in a session on text or on an
array, after every step every cursor knows its length, has its position between the
place before the first element and the end, and caches the offset that belongs to
its position.  A run stops early only where a step names a slot that is not in use. -/
theorem run_keeps_offset :
    (∀ (s : String) (steps : List (Step Char)),
      (s.length : Int) < maxPosition → s.utf8ByteSize ≤ maxIndex →
        Session.RunDelivers { input := s } steps fun effects =>
          ∀ effect ∈ effects, ∀ c ∈ effect.session.cursors, Text.KeepsOffset c) ∧
    (∀ {β : Type} [BEq β] (xs : Array β) (steps : List (Step β)),
      (xs.size : Int) < maxPosition →
        Session.RunDelivers { input := xs } steps fun effects =>
          ∀ effect ∈ effects, ∀ c ∈ effect.session.cursors, Indexed.KeepsOffset c) := by
  constructor
  · intro s steps hlength hstorage
    have hstart := Session.sound_start (Text.addressable hlength hstorage)
    apply (Session.delivers_run hstart steps).imp
    intro effects hsound effect heffect c hc
    exact Text.keepsOffset_of_coherent ((hsound effect heffect).cursors c hc).coherent
  · intro β _ xs steps hsize
    have hstart := Session.sound_start (Indexed.addressable hsize)
    apply (Session.delivers_run hstart steps).imp
    intro effects hsound effect heffect c hc
    exact Indexed.keepsOffset_of_coherent ((hsound effect heffect).cursors c hc).coherent

/-- Characters of one to four bytes, with copies, a range of what is left, and moves
that are refused. -/
theorem run_keeps_offset_mixed_widths :
    ("aé🦀b".length : Int) < maxPosition ∧ "aé🦀b".utf8ByteSize ≤ maxIndex ∧
    (Session.run { input := "aé🦀b" }
      [.on .input, .act 0 .next, .act 0 (.accept 'é'), .copy 0, .act 0 (.skip (-9)),
        .onRange (.remaining 1) 0 7, .act 2 (.upTo 'b'), .restore 0 2]).isOk ∧
    (Session.RunDelivers { input := "aé🦀b" }
      [.on .input, .act 0 .next, .act 0 (.accept 'é'), .copy 0, .act 0 (.skip (-9)),
        .onRange (.remaining 1) 0 7, .act 2 (.upTo 'b'), .restore 0 2] fun effects =>
      ∀ effect ∈ effects, ∀ c ∈ effect.session.cursors, Text.KeepsOffset c) ∧
    ((#[3, 1, 2] : Array Nat).size : Int) < maxPosition ∧
    (Session.run { input := #[3, 1, 2] }
      [.onCheckedRange .input 0 3, .act 0 (.take 9), .act 0 (.seek (-1))]).isOk ∧
    (Session.RunDelivers { input := #[3, 1, 2] }
      [.onCheckedRange .input 0 3, .act 0 (.take 9), .act 0 (.seek (-1))] fun effects =>
      ∀ effect ∈ effects, ∀ c ∈ effect.session.cursors, Indexed.KeepsOffset c) :=
  ⟨by decide, by decide, by decide +kernel,
    run_keeps_offset.1 "aé🦀b" _ (by decide) (by decide), by decide, by decide +kernel,
    run_keeps_offset.2 #[3, 1, 2] _ (by decide)⟩

end SeqCursor
