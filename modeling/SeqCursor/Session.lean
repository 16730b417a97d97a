import SeqCursor.Cursor.Opening
import SeqCursor.Operation

/-!
# Sessions

A session works on one input sequence with any number of cursors.  Each cursor is
kept in a numbered slot; cursors are opened on the input or on what another cursor
has read or left, copied into slots of their own, and set back to what another
slot holds.
-/

namespace SeqCursor

/-- The sequence that a new cursor is opened on. -/
inductive Base where
  /-- The input of the session. -/
  | input
  /-- The whole sequence of the cursor in a slot. -/
  | contents (slot : Nat)
  /-- What the cursor in a slot has not read. -/
  | remaining (slot : Nat)
  deriving DecidableEq, Repr

/-- A step of a session. -/
inductive Step (α : Type) where
  | on (base : Base)
  | onRange (base : Base) (start stop : Nat)
  | onCheckedRange (base : Base) (start stop : Nat)
  /-- Opens an independent copy of the cursor in a slot. -/
  | copy (slot : Nat)
  /-- Sets the cursor in `slot` back to a copy of the one in `source`. -/
  | restore (slot source : Nat)
  /-- Performs an operation on the cursor in a slot. -/
  | act (slot : Nat) (operation : Operation α)
  deriving DecidableEq, Repr

/-- What a step results in. -/
inductive StepResult (S α : Type) where
  | opened (slot : Nat)
  | refused (error : ReadError)
  | restored
  | answered (answer : Answer S α)
  deriving DecidableEq, Repr

/-- An input sequence, and the cursors at work on it by slot. -/
structure Session (S : Type) where
  input : S
  cursors : Array (Cursor S) := #[]
  deriving DecidableEq, Repr

namespace Session

variable {S α : Type} [Sequence S α]

/-- What a step brings about: its result, the session afterwards, the slot of the
cursor it opened or acted on, if any, and the notices it left. -/
structure Effect (S α : Type) where
  result : StepResult S α
  session : Session S
  subject? : Option Nat
  notices : List Notice := []

def cursor (session : Session S) (slot : Nat) : Except Fault (Cursor S) :=
  match session.cursors[slot]? with
  | some c => .ok c
  | none => .error (.unknownSlot slot)

/-- Puts a cursor into a slot that is in use. -/
def replace (session : Session S) (slot : Nat) (c : Cursor S) : Session S :=
  { session with cursors := session.cursors.setIfInBounds slot c }

/-- The sequence that a base names. -/
def resolve (session : Session S) : Base → Except Fault S
  | .input => .ok session.input
  | .contents slot => return (← session.cursor slot).contents
  | .remaining slot => do
      let c ← session.cursor slot
      c.remaining

/-- Keeps a cursor in the first unused slot. -/
def opened (session : Session S) (c : Cursor S) (notices : List Notice) : Effect S α :=
  let slot := session.cursors.size
  ⟨.opened slot, { session with cursors := session.cursors.push c }, some slot, notices⟩

def step [BEq α] (session : Session S) : Step α → Except Fault (Effect S α)
  | .on base => do
      let s ← session.resolve base
      return session.opened (Cursor.on s) []
  | .onRange base start stop => do
      let s ← session.resolve base
      let c ← Cursor.onRange s start stop
      return session.opened c []
  | .onCheckedRange base start stop => do
      let s ← session.resolve base
      let opening ← Cursor.onCheckedRange s start stop
      match opening.outcome with
      | .ok c => return session.opened c opening.notices
      | .error error => return ⟨.refused error, session, none, opening.notices⟩
  | .copy slot => do
      let c ← session.cursor slot
      return session.opened c []
  | .restore slot source => do
      let _ ← session.cursor slot
      let c ← session.cursor source
      return ⟨.restored, session.replace slot c, some slot, []⟩
  | .act slot operation => do
      let c ← session.cursor slot
      let reply ← c.perform operation
      return ⟨.answered reply.answer, session.replace slot reply.cursor, some slot, reply.notices⟩

/-- Takes steps one after the other, and lists what each brings about. -/
def run [BEq α] (session : Session S) : List (Step α) → Except Fault (List (Effect S α))
  | [] => .ok []
  | step :: steps => do
      let effect ← session.step step
      let later ← effect.session.run steps
      return effect :: later

end Session

end SeqCursor
