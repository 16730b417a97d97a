import SeqCursor.Sequence.Basic

/-!
# Text as a sequence of characters

The elements of a string are its Unicode scalar values.  Indices count
characters, offsets count the bytes of the UTF-8 form, so that the offset of a
character is the sum of the widths of those before it.  An index is resolved by
walking from the start; an offset is looked up directly, and one that falls
inside a character or behind the last byte names no element.
-/

namespace SeqCursor.Text

/-- The offset of the character at an index, or the size of the text in bytes
when there is no such character. -/
def offsetOf (s : String) (index : Nat) : Nat :=
  (s.startPos.nextn index).offset.byteIdx

/-- The text from byte `start` up to byte `stop`, both on boundaries of
characters and in order. -/
def cut (s : String) (start stop : Nat) : Except Fault String :=
  match s.pos? ⟨start⟩, s.pos? ⟨stop⟩ with
  | some first, some last =>
      if first ≤ last then .ok (s.extract first last) else .error (.badCut start stop)
  | _, _ => .error (.badCut start stop)

/-- The characters with indices in a half-open range.  Both ends are turned into
byte offsets, and the start is then held at the end. -/
def slice (s : String) (start stop : Nat) : Except Fault String :=
  let last := offsetOf s stop
  cut s (min (offsetOf s start) last) last

/-- The character that starts at an offset, and the offset behind it. -/
def atOffset (s : String) (offset : Nat) : Except Fault (Option (Char × Nat)) :=
  match s.pos? ⟨offset⟩ with
  | none => .ok none
  | some place =>
      match place.get? with
      | none => .ok none
      | some c => do
          let following ← Offset.advance offset c.utf8Size
          return some (c, following)

/-- The character that ends at an offset. -/
def beforeOffset (s : String) (offset : Nat) : Option Char := do
  let place ← s.pos? ⟨offset⟩
  let previous ← place.prev?
  previous.get?

instance : Sequence String Char where
  length s := s.length
  isEmpty s := s.isEmpty
  get? s index := s.toList[index]?
  slice := slice
  toList s := s.toList
  ofList := String.ofList
  offsetOf := offsetOf
  atOffset := atOffset
  beforeOffset := beforeOffset

end SeqCursor.Text
