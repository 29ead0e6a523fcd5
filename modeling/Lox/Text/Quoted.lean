import Lox.Text.Printable

/-!
Texts in quotes, as they appear in dumps and messages. Single quotes stand around a text, unless
it has a single quote and no double one; whatever is not shown as itself is escaped.
-/

set_option autoImplicit false

namespace Lox.Text

/-- The quote that goes around a text. -/
def quoteFor (text : List Char) : Char :=
  if text.contains '\'' && !text.contains '"' then '"' else '\''

/-- A number in hexadecimal, filled up with zeros to a width. -/
def hexadecimal (width number : Nat) : List Char :=
  let digits := Nat.toDigits 16 number
  List.replicate (width - digits.length) '0' ++ digits

/-- A character by its number, in the shortest of three forms that has room for it. -/
def escapeByNumber (char : Char) : List Char :=
  let number := char.toNat
  if number < 0x100 then '\\' :: 'x' :: hexadecimal 2 number
  else if number < 0x10000 then '\\' :: 'u' :: hexadecimal 4 number
  else '\\' :: 'U' :: hexadecimal 8 number

/-- A character as it is written between quotes. -/
def escape (quote char : Char) : List Char :=
  if char == quote || char == '\\' then ['\\', char]
  else if char == '\n' then ['\\', 'n']
  else if char == '\r' then ['\\', 'r']
  else if char == '\t' then ['\\', 't']
  else if isPrintable char then [char]
  else escapeByNumber char

/-- A text in quotes. -/
def quoted (text : String) : String :=
  let quote := quoteFor text.toList
  .ofList (quote :: text.toList.flatMap (escape quote) ++ [quote])

end Lox.Text
