/-!
# Sinks

What elements are written to, one at a time or many in order.
-/

namespace SeqCursor

/-- A `W` that elements in `α` can be written to. -/
class Sink (W : Type) (α : outParam Type) where
  /-- Stores an element behind those stored before. -/
  put : W → α → W
  /-- Stores elements in order. -/
  putAll : W → List α → W := fun sink values => values.foldl put sink

/-- An array takes up what is written to it. -/
instance {α : Type} : Sink (Array α) α where
  put := Array.push

end SeqCursor
