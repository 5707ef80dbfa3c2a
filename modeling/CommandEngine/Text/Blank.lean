import CommandEngine.Text.RangeSet

/-!
# Blank characters and trimming

A blank is a character with the Unicode property White_Space. Trimming a text removes its leading and trailing blanks and
keeps everything between them, blanks included.
-/

namespace CommandEngine.Text

/-- Code points with the Unicode property White_Space. -/
def blankSet : RangeSet :=
  RangeSet.ofTable <| " ".intercalate [
    "9-d 20-20 85-85 a0-a0 1680-1680 2000-200a 2028-2029 202f-202f 205f-205f 3000-3000"]

/-- Whether `c` is a blank (Unicode White_Space). -/
def isBlank (c : Char) : Bool :=
  blankSet.mem c

/-- The characters of `cs` with leading and trailing blanks removed. -/
def trimBlanks (cs : List Char) : List Char :=
  ((cs.dropWhile isBlank).reverse.dropWhile isBlank).reverse

/-- The text `s` with leading and trailing blanks removed. -/
def trim (s : String) : String :=
  String.ofList (trimBlanks s.toList)

end CommandEngine.Text
