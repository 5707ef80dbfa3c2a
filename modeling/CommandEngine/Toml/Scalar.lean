import CommandEngine.Toml.Text
import CommandEngine.Toml.Datetime

/-!
# Bare values of a configuration document

A bare value, one not in quotes, that holds a blank is refused unless it is a date and time. Any other is read by its
first character:

* a sign is followed by a number, `inf` or `nan`, and by one sign only;
* `0x`, `0o` and `0b` (in lower case) begin an integer in base 16, 8 or 2, which takes no sign; `0d` is refused as a
  needless prefix;
* digits, or an underscore, begin a date and time when the first digits are followed by `-` or `:`; a float when what
  follows them holds `.`, `e` or `E`; an integer when it begins with an underscore or is empty; and a string that lacks
  its quotes otherwise;
* `.` begins a float, `t` and `f` the booleans, `i` and `n` the floats `inf` and `nan`.

A float is a mantissa of digits, an optional fraction of digits after `.`, and an optional exponent of digits after
`e`, maybe signed, and nothing more. A mantissa or integer may not begin with zero followed by a digit or an underscore.
A bare value that is none of these is refused as a string: as one lacking its opening quote if it holds a quote, and
as one lacking its quotes otherwise.
An underscore must stand between two digits; in a decimal integer, between two hexadecimal digits, the integer itself
being judged only when a configuration is read from it.

Integers and floats are kept as written, to the exact value; whether they fit the machine numbers is settled when a
configuration is read from them.
-/

namespace CommandEngine.Toml

/-- A number with a fractional part or an exponent, kept as written: a sign, a mantissa and a power of ten. -/
inductive FloatValue where
  | finite (negative : Bool) (mantissa : Nat) (exponent : Int)
  | infinite (negative : Bool)
  | nan
  deriving DecidableEq, Repr, Inhabited

/-- A value that is neither an array nor a table. -/
inductive Scalar where
  | string (s : String)
  /-- An integer; none when its digits name no number, as `0x` alone. -/
  | integer (value : Option Int)
  | float (f : FloatValue)
  | boolean (b : Bool)
  | datetime (text : String)
  deriving DecidableEq, Repr, Inhabited

namespace Bare

/-- The problem of a bare value that should have been a quoted string. -/
def unquoted (sp : Span) : Issue :=
  Issue.expecting sp "string values must be quoted" [.description "literal string"]

/-- Whether `c` is a quote. -/
def isQuote (c : Char) : Bool :=
  c = '\'' ∨ c = '"'

/-- Refuses the bare value `whole` at `sp`, which is no number, boolean or date and time: holding a quote, it is a
string lacking its opening quote, and otherwise a string lacking its quotes. -/
def invalid {α : Type} (whole : List Char) (sp : Span) : Except Issue α :=
  match whole.find? isQuote with
  | some q => throw (Issue.expecting (Span.point sp.start) "missing opening quote" [.literal q.toString])
  | none => throw (unquoted sp)

/-- The digits of base `base`. -/
def isDigitIn (base : Nat) (c : Char) : Bool :=
  if base = 16 then Text.isHexDigit c else c.isDigit ∧ c.toNat - '0'.toNat < base

/-- The value of digits in base `base`, underscores left out; none for no digits or a character that is no digit. -/
def digitsIn (base : Nat) (cs : List Char) : Option Nat :=
  let ds := cs.filter (· ≠ '_')
  if ds.isEmpty ∨ !ds.all (isDigitIn base) then none
  else some (ds.foldl (fun n d => base * n + Text.hexValue d) 0)

/-- The first underscore of `cs`, which starts at byte `pos`, that does not stand between two digits. -/
def underscoreProblem (digit : Char → Bool) (cs : List Char) (pos : Nat) : Option Issue :=
  let rec go : List Char → Option Char → Nat → Option Issue
    | [], _, _ => none
    | c :: rest, prev, here =>
      if c = '_' ∧ !((prev.map digit).getD false ∧ (rest.head?.map digit).getD false) then
        some (Issue.expecting ⟨here, here + 1⟩ "`_` may only go between digits" [])
      else go rest (some c) (here + c.utf8Size)
  go cs none pos

/-- Checks the underscores of `cs`, which starts at byte `pos`. -/
def checkUnderscores (digit : Char → Bool) (cs : List Char) (pos : Nat) : Except Issue Unit :=
  match underscoreProblem digit cs pos with
  | some issue => throw issue
  | none => pure ()

/-- Whether `c` is a digit or an underscore. -/
def digitOrUnderscore (c : Char) : Bool :=
  c.isDigit ∨ c = '_'

/-- Whether a run of digits and underscores begins with a zero that something follows. -/
def zeroLed (run : List Char) : Bool :=
  run.length ≥ 2 ∧ run.head? = some '0'

/-- The leading run of digits and underscores of `cs`, which starts at byte `pos`, named `what` in its problems: it
must hold a digit, reported missing at byte `missingAt`, and may not be led by zero unless `zeros` allows it. Gives
the rest. -/
def digitRun (what : String) (zeros : Bool) (cs : List Char) (pos missingAt : Nat) : Except Issue (List Char) := do
  let run := cs.takeWhile digitOrUnderscore
  if !run.any Char.isDigit then throw (Issue.expecting (Span.point missingAt) what [.description "digits"])
  if zeroLed run ∧ !zeros then throw (Issue.expecting ⟨pos, pos + 1⟩ "unexpected leading zero" [])
  pure (cs.drop run.length)

/-- Checks that `cs`, which starts at byte `pos`, is a float, ending at byte `stop`; a missing mantissa is reported at
byte `start`, where the value with its sign begins. -/
def checkFloat (cs : List Char) (start pos stop : Nat) : Except Issue Unit := do
  let rest ← digitRun "invalid mantissa" false cs pos start
  let rest ← match rest with
    | '.' :: more => digitRun "invalid fraction" true more (stop - byteSize more) (stop - byteSize more)
    | _ => pure rest
  let rest ← match rest with
    | c :: more =>
      if c = 'e' ∨ c = 'E' then
        let more := match more with
          | '+' :: m | '-' :: m => m
          | m => m
        digitRun "invalid exponent" true more (stop - byteSize more) (stop - byteSize more)
      else pure rest
    | [] => pure rest
  if !rest.isEmpty then throw (Issue.expecting ⟨stop - byteSize rest, stop⟩ "invalid float" [])

/-- The value of a float that passed `checkFloat`, with the given sign. -/
def floatValue (negative : Bool) (cs : List Char) : FloatValue :=
  let cs := cs.filter (· ≠ '_')
  let whole := cs.takeWhile Char.isDigit
  let rest := cs.drop whole.length
  let fraction := match rest with
    | '.' :: more => more.takeWhile Char.isDigit
    | _ => []
  let rest := match rest with
    | '.' :: more => more.drop fraction.length
    | _ => rest
  let power : Int := match rest with
    | _ :: '-' :: ds => -(digitsValue ds : Int)
    | _ :: '+' :: ds => digitsValue ds
    | _ :: ds => digitsValue ds
    | [] => 0
  .finite negative (digitsValue (whole ++ fraction)) (power - fraction.length)

/-- The integer of decimal digits `cs`, with the given sign. -/
def decimalValue (negative : Bool) (cs : List Char) : Option Int :=
  (digitsIn 10 cs).map fun n => if negative then -(n : Int) else n

/-- Whether what follows the first digits of a bare value marks it as a float: it holds `.`, `e` or `E`. -/
def marksFloat (rest : List Char) : Bool :=
  rest.any fun c => c = '.' ∨ c = 'e' ∨ c = 'E'

/-- Reads a float `cs` at byte `pos`, the whole value lying at `sp`. -/
def readFloat (negative : Bool) (cs : List Char) (pos : Nat) (sp : Span) : Except Issue Scalar := do
  checkFloat cs sp.start pos sp.stop
  checkUnderscores Char.isDigit cs pos
  pure (.float (floatValue negative cs))

/-- Reads a decimal integer `cs` at byte `pos`. Only its leading zero and its underscores are checked here; digits
that name no number are refused when a configuration reads it. -/
def readDecimal (negative : Bool) (cs : List Char) (pos : Nat) : Except Issue Scalar := do
  if zeroLed (cs.takeWhile digitOrUnderscore) then
    throw (Issue.expecting ⟨pos, pos + 1⟩ "unexpected leading zero" [])
  checkUnderscores Text.isHexDigit cs pos
  pure (.integer (decimalValue negative cs))

/-- Reads a value `cs` at byte `pos` that begins with a digit or an underscore, the whole value `whole` lying at `sp`. -/
def readNumeric (negative : Bool) (cs : List Char) (pos : Nat) (whole : List Char) (sp : Span) :
    Except Issue Scalar :=
  let digits := cs.takeWhile Char.isDigit
  let rest := cs.drop digits.length
  match rest with
  | [] => readDecimal negative cs pos
  | c :: _ =>
    if c = '-' ∨ c = ':' then
      match checkDatetime whole with
      | .ok () => pure (.datetime (String.ofList whole))
      | .error message => throw ⟨some sp, message⟩
    else if marksFloat rest then readFloat negative cs pos sp
    else if c = '_' then readDecimal negative cs pos
    else invalid whole sp

/-- The first character of `cs`, which starts at byte `pos`, that is neither a digit in base `base` nor an underscore,
as the problem `name` at its first byte. -/
def badDigit (base : Nat) (name : String) : List Char → Nat → Option Issue
  | [], _ => none
  | c :: rest, pos =>
    if isDigitIn base c ∨ c = '_' then badDigit base name rest (pos + c.utf8Size)
    else some ⟨some ⟨pos, pos + 1⟩, name⟩

/-- Reads an integer with a base prefix: `cs` begins with `0` and the prefix letter `r`, at byte `pos`. -/
def readRadix (signed : Bool) (r : Char) (digits : List Char) (pos : Nat) (sp : Span) : Except Issue Scalar := do
  if signed then throw (Issue.expecting ⟨sp.start, sp.start + 1⟩ "integers with a radix cannot be signed" [])
  let lower := r.toLower
  if r ≠ lower then throw (Issue.expecting ⟨pos, pos + 2⟩ "radix must be lowercase" [.literal ("0" ++ lower.toString)])
  let (base, name) : Nat × String :=
    if lower = 'x' then (16, "invalid hexadecimal number")
    else if lower = 'o' then (8, "invalid octal number")
    else (2, "invalid binary number")
  let start := pos + 2
  match digits with
  | c :: _ =>
    if c = '+' ∨ c = '-' then throw (Issue.expecting ⟨start, start + 1⟩ "unexpected sign" [])
  | [] => pure ()
  if let some issue := badDigit base name digits start then throw issue
  checkUnderscores (isDigitIn base) digits start
  pure (.integer ((digitsIn base digits).map (Int.ofNat)))

/-- Refuses the prefix `0d` at byte `pos`, which names the base integers have anyway. -/
def redundantPrefix (signed : Bool) (pos : Nat) (sp : Span) : Except Issue Scalar :=
  if signed then throw (Issue.expecting ⟨sp.start, sp.start + 1⟩ "integers with a radix cannot be signed" [])
  else throw (Issue.expecting ⟨pos, pos + 2⟩ "redundant integer number prefix" [])

/-- Reads a value `cs` at byte `pos` that begins with zero. -/
def readZero (negative signed : Bool) (cs : List Char) (pos : Nat) (whole : List Char) (sp : Span) :
    Except Issue Scalar :=
  match cs with
  | ['0'] => pure (.integer (some 0))
  | '0' :: r :: more =>
    if r = 'x' ∨ r = 'X' ∨ r = 'o' ∨ r = 'O' ∨ r = 'b' ∨ r = 'B' then readRadix signed r more pos sp
    else if r = 'd' ∨ r = 'D' then redundantPrefix signed pos sp
    else if r = '.' ∨ r = 'e' ∨ r = 'E' then readFloat negative cs pos sp
    else readNumeric negative cs pos whole sp
  | _ => readNumeric negative cs pos whole sp

/-- Reads one of the words `true`, `false`, `inf` and `nan`, where `word` was expected. -/
def readWord (cs : List Char) (word : String) (value : Scalar) (what : String) (sp : Span) : Except Issue Scalar :=
  if cs = word.toList then pure value
  else throw (Issue.expecting sp what [.literal word])

/-- Reads what follows a sign: `cs` at byte `pos`, the whole value lying at `sp`. -/
def readSigned (negative : Bool) (cs : List Char) (pos : Nat) (whole : List Char) (sp : Span) :
    Except Issue Scalar :=
  match cs with
  | [] => invalid whole sp
  | c :: _ =>
    if c = '+' ∨ c = '-' then throw (Issue.expecting ⟨pos, pos + 1⟩ "redundant numeric sign" [])
    else if c = '0' then readZero negative true cs pos whole sp
    else if c.isDigit ∨ c = '_' then readNumeric negative cs pos whole sp
    else if c = '.' then readFloat negative cs pos sp
    else if c = 'i' ∨ c = 'I' then
      if cs = "inf".toList then pure (.float (.infinite negative))
      else throw (Issue.expecting ⟨pos, sp.stop⟩ "invalid float" [.literal "inf"])
    else if c = 'n' ∨ c = 'N' then
      if cs = "nan".toList then pure (.float .nan)
      else throw (Issue.expecting ⟨pos, sp.stop⟩ "invalid float" [.literal "nan"])
    else invalid whole sp

/-- Whether a bare value is read as a date and time: its first digits are followed by `-` or `:`. -/
def datetimeShaped (cs : List Char) : Bool :=
  match cs.head?, cs.dropWhile Char.isDigit with
  | some c, d :: _ => c.isDigit ∧ (d = '-' ∨ d = ':')
  | _, _ => false

/-- Reads a bare value `cs` at `sp` by its first character. -/
def readByLead (cs : List Char) (sp : Span) : Except Issue Scalar :=
  match cs with
  | [] => invalid cs sp
  | c :: rest =>
    if c = '+' ∨ c = '-' then readSigned (c = '-') rest (sp.start + 1) cs sp
    else if c = '0' then readZero false false cs sp.start cs sp
    else if c.isDigit ∨ c = '_' then readNumeric false cs sp.start cs sp
    else if c = '.' then readFloat false cs sp.start sp
    else if c = 't' ∨ c = 'T' then readWord cs "true" (.boolean true) "invalid boolean" sp
    else if c = 'f' ∨ c = 'F' then readWord cs "false" (.boolean false) "invalid boolean" sp
    else if c = 'i' ∨ c = 'I' then readWord cs "inf" (.float (.infinite false)) "invalid float" sp
    else if c = 'n' ∨ c = 'N' then readWord cs "nan" (.float .nan) "invalid float" sp
    else invalid cs sp

end Bare

/-- Decodes a bare value written as `text` at `sp`: one holding a blank is refused unless it is a date and time, and
any other is read by its first character. -/
def decodeBare (text : String) (sp : Span) : Except Issue Scalar :=
  let cs := text.toList
  if cs.any Text.isBlank ∧ !Bare.datetimeShaped cs then Bare.invalid cs sp
  else Bare.readByLead cs sp

/-- Decodes a scalar written as `text` at `sp`, quoted as `quoting` says. -/
def decodeScalar (text : String) (sp : Span) : Option Quoting → Except Issue Scalar
  | some q => do pure (.string (← decodeString q text sp))
  | none => decodeBare text sp

end CommandEngine.Toml
