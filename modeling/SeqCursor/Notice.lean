/-!
# Notices

An operation that refuses or clamps what was asked for carries on with a
harmless result and leaves a notice of it.  Every notice is a value with its
cause; its severity and its wording are read off the cause.
-/

namespace SeqCursor

inductive Severity where
  | trace
  | debug
  deriving DecidableEq, Repr

def Severity.label : Severity → String
  | trace => "TRACE"
  | debug => "DEBUG"

/-- A request that was refused or clamped. -/
inductive Notice where
  /-- A move to `position`, outside of a sequence with `length` elements. -/
  | rejectedPosition (position : Int) (length : Nat)
  /-- A relative move that would have left the sequence, made from `position`. -/
  | skipLeaves (move position : Int)
  /-- A read of `count` elements from `start`, with only `length` elements there. -/
  | clampedTake (count start length : Nat)
  /-- A range that is inverted or ends behind `length`. -/
  | rejectedRange (start stop length : Nat)
  deriving DecidableEq, Repr

namespace Notice

def severity : Notice → Severity
  | rejectedPosition .. => .trace
  | skipLeaves .. => .debug
  | clampedTake .. => .trace
  | rejectedRange .. => .debug

def message : Notice → String
  | rejectedPosition position length =>
      s!"rejected position {position} outside -1..={length}"
  | skipLeaves move position =>
      s!"skip({move}) from {position} leaves the sequence, moving to end"
  | clampedTake count start length =>
      s!"get_next({count}) from {start} clamped to {length}"
  | rejectedRange start stop length =>
      s!"rejected range {start}..{stop} over {length} elements"

/-- One line of a log: the severity, then the message. -/
def line (notice : Notice) : String :=
  notice.severity.label ++ " " ++ notice.message

end Notice

end SeqCursor
