/-
Quoted texts: between double quotes, the quote and the backslash are written after a
backslash, so are line feed, carriage return, tab and NUL by a letter, and every other
unprintable character by its code point in braces.  A single quote stands as it is.
-/
import StatementPlan.Text.Unprintable

namespace StatementPlan.Quoted

/-- A character by its code point: lower-case hexadecimal, without leading zeros. -/
def codePoint (c : Char) : List Char :=
  ['\\', 'u', '\x7b'] ++ Nat.toDigits 16 c.toNat ++ ['\x7d']

/-- The written form of one character. -/
def escape (c : Char) : List Char :=
  match c with
  | '"' => ['\\', '"']
  | '\\' => ['\\', '\\']
  | '\n' => ['\\', 'n']
  | '\r' => ['\\', 'r']
  | '\t' => ['\\', 't']
  | '\x00' => ['\\', '0']
  | _ => if isUnprintable c then codePoint c else [c]

/-- The quoted text. -/
def quote (text : String) : String :=
  String.ofList ('"' :: (text.toList.flatMap escape ++ ['"']))

/-- Texts in brackets, quoted and separated by commas. -/
def quoteList (texts : List String) : String :=
  "[" ++ ", ".intercalate (texts.map quote) ++ "]"

end StatementPlan.Quoted
