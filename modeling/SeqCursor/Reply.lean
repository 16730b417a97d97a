import SeqCursor.Notice

/-!
# Replies

An operation answers, moves what it was asked of, and may leave notices.  A reply
holds the three together, for any kind of cursor.
-/

namespace SeqCursor

/-- What an operation brings about: its answer, the cursor afterwards, and the
notices it left, the earliest first. -/
structure Reply (C β : Type) where
  answer : β
  cursor : C
  notices : List Notice := []
  deriving DecidableEq, Repr

namespace Reply

variable {C β γ : Type}

/-- The same reply with its answer put differently. -/
def map (f : β → γ) (reply : Reply C β) : Reply C γ :=
  ⟨f reply.answer, reply.cursor, reply.notices⟩

@[simp]
theorem answer_map (f : β → γ) (reply : Reply C β) :
    (reply.map f).answer = f reply.answer := rfl

@[simp]
theorem cursor_map (f : β → γ) (reply : Reply C β) :
    (reply.map f).cursor = reply.cursor := rfl

@[simp]
theorem notices_map (f : β → γ) (reply : Reply C β) :
    (reply.map f).notices = reply.notices := rfl

end Reply

end SeqCursor
