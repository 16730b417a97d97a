import SeqCursor.Inspect.CodePoints

/-!
# Quoted text

Text in double quotes, written so that each character can be told from the page.
Quotes, backslashes and the common controls are escaped by a letter; characters
that cannot be seen by themselves by their code point; all others stand as they
are.
-/

namespace SeqCursor.Quoted

/-- The code point of a character in hexadecimal, in an escape with braces. -/
def codePointEscape (c : Char) : String :=
  "\\u\x7b" ++ String.ofList (Nat.toDigits 16 c.toNat) ++ "\x7d"

/-- A character as it is written between quotes. -/
def escape (c : Char) : String :=
  match c with
  | '"' => "\\\""
  | '\\' => "\\\\"
  | '\n' => "\\n"
  | '\r' => "\\r"
  | '\t' => "\\t"
  | '\x00' => "\\0"
  | _ =>
      if CodePoints.isExtending c || CodePoints.isUnseen c then
        codePointEscape c
      else
        String.singleton c

def quote (s : String) : String :=
  "\"" ++ String.join (s.toList.map escape) ++ "\""

end SeqCursor.Quoted
