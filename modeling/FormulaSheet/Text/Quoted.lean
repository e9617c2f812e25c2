/-
Quotations: how a message shows the text or the character it complains about.

A text is quoted between double quotes and a character between single ones. The
mark that closes the quotation and the backslash are escaped, the four control
characters with a letter of their own are written by it, and every other hidden
character is written by its code point in hexadecimal. So what stands between
the marks is all visible, whatever was quoted.
-/
import FormulaSheet.Text.Visible

set_option autoImplicit false

namespace FormulaSheet.Text

/-- A character by its code point: a backslash, the letter u and the hexadecimal number in
braces. -/
def codePoint (c : Char) : List Char :=
  ['\\', 'u', '\x7b'] ++ Nat.toDigits 16 c.toNat ++ ['\x7d']

/-- A character as it stands in a quotation that `mark` closes. -/
def escape (mark c : Char) : List Char :=
  if c = mark || c = '\\' then ['\\', c]
  else if c = '\n' then ['\\', 'n']
  else if c = '\r' then ['\\', 'r']
  else if c = '\t' then ['\\', 't']
  else if c = '\x00' then ['\\', '0']
  else if isHidden c then codePoint c
  else [c]

/-- A text between double quotes. -/
def quote (cs : List Char) : List Char :=
  '"' :: cs.flatMap (escape '"') ++ ['"']

/-- A character between single quotes. -/
def quoteChar (c : Char) : List Char :=
  '\'' :: escape '\'' c ++ ['\'']

def quoteString (s : String) : String :=
  String.ofList (quote s.toList)

end FormulaSheet.Text
