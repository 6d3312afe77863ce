import Easel.Text.Graphic

/-!
# Quoted text

How a text is shown on one line: between double quotes, with the quote, the backslash and every
character that has no shape of its own written as an escape.
-/

namespace Easel.Text

/-- How a character is written between quotes: the common controls, the quote and the backslash
by a letter after a backslash, any other character that is not graphic by its code point in
hexadecimal. -/
def escape (c : Char) : List Char :=
  if c = '\x00' then ['\\', '0']
  else if c = '\t' then ['\\', 't']
  else if c = '\r' then ['\\', 'r']
  else if c = '\n' then ['\\', 'n']
  else if c = '"' then ['\\', '"']
  else if c = '\\' then ['\\', '\\']
  else if isGraphic c then [c]
  else '\\' :: 'u' :: '\x7b' :: (Nat.toDigits 16 c.toNat ++ ['\x7d'])

/-- A text between quotes. -/
def quote (s : String) : String :=
  String.ofList ('"' :: (s.toList.flatMap escape ++ ['"']))

end Easel.Text
