import TreeWire.Number.IntText
import TreeWire.Text.Printable

/-
  Quoted text: a string between double quotes in which every
  character that would not be seen is written as an escape.

  Key definitions include:
    * `Quoted.escape`
    * `quoted`
    * `quotedPath`
-/

namespace TreeWire

namespace Quoted

------------------------------------------------------------
-- Escapes
------------------------------------------------------------

/- The escape that names a character by its code point. -/
def codePoint
    (c : Char) : List Char :=
  ['\\', 'u', '\x7b'] ++ hexDigits c.toNat ++ ['\x7d']

/-
  A character as it stands between quotes.  `marks` are the
  quotation marks that need a backslash.
-/
def escape
    (marks : List Char)
    (c : Char) : List Char :=
  if c = Char.ofNat 0 then ['\\', '0']
  else if c = '\t' then ['\\', 't']
  else if c = '\r' then ['\\', 'r']
  else if c = '\n' then ['\\', 'n']
  else if c = '\\' then ['\\', '\\']
  else if marks.contains c then ['\\', c]
  else if isCombining c || !isPrintable c then codePoint c
  else [c]

/- A string between double quotes. -/
def write
    (marks : List Char)
    (s : String) : String :=
  String.ofList ('"' :: (s.toList.flatMap (escape marks) ++ ['"']))

end Quoted

/- A text between double quotes. -/
def quoted
    (s : String) : String :=
  Quoted.write ['"'] s

/-
  A file path between double quotes.  Paths escape the single
  quotation mark as well.
-/
def quotedPath
    (s : String) : String :=
  Quoted.write ['"', '\x27'] s

end TreeWire
