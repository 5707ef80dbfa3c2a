import CommandEngine.Text.Printable

/-!
# Quoted text in debug renderings

A debug rendering shows a text between double quotes. A quote, a backslash, NUL, tab, carriage return and line feed
are written with a backslash and a letter; an extending or unprintable character is written as `\u` with its code point
in lowercase hexadecimal between braces; every other character stands for itself.
-/

namespace CommandEngine.Text

/-- The code point of `c` in lowercase hexadecimal, without leading zeros. -/
def hexOf (c : Char) : String :=
  String.ofList (Nat.toDigits 16 c.toNat)

/-- The written form of one character inside a quoted text. -/
def escapeChar (c : Char) : String :=
  if c = '\x00' then "\\0"
  else if c = '\t' then "\\t"
  else if c = '\r' then "\\r"
  else if c = '\n' then "\\n"
  else if c = '\\' then "\\\\"
  else if c = '"' then "\\\""
  else if isExtending c || !isPrintable c then "\\u\x7b" ++ hexOf c ++ "\x7d"
  else c.toString

/-- The text `s` between double quotes, each character in its written form. -/
def quote (s : String) : String :=
  "\"" ++ String.join (s.toList.map escapeChar) ++ "\""

/-- A list of texts in brackets, each quoted, separated by a comma and a space. -/
def quoteList (xs : List String) : String :=
  "[" ++ ", ".intercalate (xs.map quote) ++ "]"

end CommandEngine.Text
