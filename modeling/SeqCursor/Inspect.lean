import SeqCursor.Cursor.Basic
import SeqCursor.Inspect.Quoted
import SeqCursor.ReadError

/-!
# Inspection

Values written out for whoever debugs a reader: text in quotes with its escapes,
numbers and truth values plainly, arrays in brackets, records with the names of
their fields.
-/

namespace SeqCursor

/-- A way to write a value out for inspection. -/
class Inspect (α : Type) where
  inspect : α → String

export Inspect (inspect)

namespace Inspect

def brackets (parts : List String) : String :=
  "[" ++ ", ".intercalate parts ++ "]"

/-- A record: its name, and its fields in braces. -/
def record (name : String) (fields : List (String × String)) : String :=
  name ++ " \x7b " ++ ", ".intercalate (fields.map fun field => field.1 ++ ": " ++ field.2)
    ++ " \x7d"

end Inspect

instance : Inspect String where
  inspect := Quoted.quote

instance : Inspect Int where
  inspect := toString

instance : Inspect Nat where
  inspect := toString

instance : Inspect UInt8 where
  inspect byte := toString byte.toNat

instance : Inspect Bool where
  inspect holds := if holds then "true" else "false"

instance {α : Type} [Inspect α] : Inspect (Array α) where
  inspect elements := Inspect.brackets (elements.toList.map inspect)

/-- All fields of a cursor, the offset it keeps included. -/
instance {S : Type} [Inspect S] : Inspect (Cursor S) where
  inspect c := Inspect.record "PositionableStream"
    [("sequence", inspect c.sequence), ("position", inspect c.position),
      ("len", inspect c.length), ("offset", inspect c.offset)]

instance : Inspect ReadError where
  inspect
    | .endOfStream position =>
        Inspect.record "EndOfStream" [("position", inspect position)]
    | .rangeOutOfBounds start stop length =>
        Inspect.record "RangeOutOfBounds"
          [("from", inspect start), ("to", inspect stop), ("len", inspect length)]

end SeqCursor
