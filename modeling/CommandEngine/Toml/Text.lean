import CommandEngine.Toml.Syntax

/-!
# Strings and keys of a configuration document

A string is decoded from its text as written, quotes included, which starts at a known byte of the document; a problem
names the bytes it is about.

* A string must begin and end with its quotes; a string in three quotes drops a line break right after its opening
  quotes.
* Control characters other than tab may not stand in a string, nor may a carriage return stand alone in a multi-line
  string. In a basic string a run of such characters is refused as one; in a literal string, the first of them.
* A basic string takes the escapes `\b`, `\e`, `\f`, `\n`, `\r`, `\t`, `\"`, `\\`, and `\xHH`, `\uHHHH`, `\UHHHHHHHH`
  naming a Unicode scalar value. In a multi-line basic string a backslash at the end of a line, blanks allowed after
  it, joins the next non-blank text.
* A bare key holds ASCII letters, digits, `-` and `_`, at least one; the first run of other characters is refused as
  one. A key may also be a one-line string.
-/

namespace CommandEngine.Toml

namespace Text

/-- Whether `c` may stand as itself in a string of the given quoting, line breaks and backslashes apart. -/
def plain (q : Quoting) (c : Char) : Bool :=
  let unquoted : Bool :=
    match q with
    | .basic => c != '"' && c != '\\'
    | .multilineBasic => c != '\\'
    | .literal => c != '\''
    | .multilineLiteral => true
  c = '\t' ∨ 0x80 ≤ c.toNat ∨ (0x20 ≤ c.toNat ∧ c.toNat ≤ 0x7E ∧ unquoted)

/-- The description of a string of the given quoting in its problems. -/
def invalidText : Quoting → String
  | .basic => "invalid basic string"
  | .literal => "invalid literal string"
  | .multilineBasic => "invalid multi-line basic string"
  | .multilineLiteral => "invalid multi-line literal string"

/-- What may stand in a string of the given quoting, as its problems say. -/
def allowed : Quoting → List Expected
  | .basic => [.description "non-double-quote visible characters", .literal "\\"]
  | .literal => [.description "non-single-quote visible characters"]
  | .multilineBasic => [.literal "\\", .description "characters"]
  | .multilineLiteral => [.description "non-single-quote characters"]

/-- The closing quote of a string of the given quoting, as its problems name it. -/
def quoteChar : Quoting → String
  | .basic | .multilineBasic => "\""
  | .literal | .multilineLiteral => "'"

/-- The escapes a problem lists when a backslash is followed by something else. -/
def escapes : List Expected :=
  ["b", "e", "f", "n", "r", "\\", "\"", "x", "u", "U"].map .literal

/-- Whether `c` is a hexadecimal digit. -/
def isHexDigit (c : Char) : Bool :=
  c.isDigit ∨ ('a' ≤ c ∧ c ≤ 'f') ∨ ('A' ≤ c ∧ c ≤ 'F')

/-- The value of a hexadecimal digit. -/
def hexValue (c : Char) : Nat :=
  if c.isDigit then c.toNat - '0'.toNat
  else if 'a' ≤ c ∧ c ≤ 'f' then c.toNat - 'a'.toNat + 10
  else c.toNat - 'A'.toNat + 10

/-- The number named by hexadecimal digits. -/
def hexNumber (ds : List Char) : Nat :=
  ds.foldl (fun n d => 16 * n + hexValue d) 0

/-- The character named by the escape letter `c`, when it names one by itself. -/
def simpleEscape (c : Char) : Option Char :=
  match c with
  | 'b' => some '\x08'
  | 'e' => some '\x1b'
  | 'f' => some '\x0c'
  | 'n' => some '\n'
  | 'r' => some '\r'
  | 't' => some '\t'
  | '"' => some '"'
  | '\\' => some '\\'
  | _ => none

/-- The number of hexadecimal digits the escape letter `c` takes. -/
def hexWidth (c : Char) : Option Nat :=
  match c with
  | 'x' => some 2
  | 'u' => some 4
  | 'U' => some 8
  | _ => none

/-- Whether `c` is a blank: a space or a tab. -/
def isBlank (c : Char) : Bool :=
  c = ' ' ∨ c = '\t'

/-- The text after a backslash at the end of a line: blanks and line breaks dropped. -/
def dropJoin : List Char → List Char
  | c :: rest => if c = ' ' ∨ c = '\t' ∨ c = '\n' then dropJoin rest
    else if c = '\r' ∧ rest.head? = some '\n' then dropJoin rest
    else c :: rest
  | [] => []

/-- Dropping the text a line-end backslash joins never lengthens the text. -/
theorem length_dropJoin_le (cs : List Char) : (dropJoin cs).length ≤ cs.length := by
  induction cs with
  | nil => simp [dropJoin]
  | cons c rest ih =>
    simp only [dropJoin]
    split
    · simp only [List.length_cons]; omega
    · split
      · simp only [List.length_cons]; omega
      · simp

/-- Whether a character ends a run of characters refused in a basic string of quoting `q`. -/
def endsRun (q : Quoting) (d : Char) : Bool :=
  plain q d ∨ d = '\\' ∨ (q = .multilineBasic ∧ (d = '\n' ∨ d = '\r'))

/-- The characters refused where a string of quoting `q` holds `c` followed by `rest`: in a basic string the run up to
a character that ends it, and in a literal string `c` alone. -/
def refusedRun (q : Quoting) (c : Char) (rest : List Char) : List Char :=
  if q = .basic ∨ q = .multilineBasic then c :: rest.takeWhile (!endsRun q ·) else [c]

/-- The decoded body of a string of quoting `q`, whose first character lies at byte `pos`, after `acc`. -/
def body (q : Quoting) (cs : List Char) (pos : Nat) (acc : List Char) : Except Issue (List Char) :=
  match cs with
  | [] => pure acc
  | c :: rest =>
    if c = '\\' ∧ (q = .basic ∨ q = .multilineBasic) then
      match rest with
      | [] => throw (Issue.expecting (Span.point (pos + 1)) "missing escaped value" escapes)
      | e :: more =>
        if q = .multilineBasic ∧ (isBlank e ∨ e = '\n' ∨ e = '\r') then
          let blanks := (e :: more).takeWhile isBlank
          let after := (e :: more).drop blanks.length
          let mark := pos + 1 + blanks.length
          if after.head? = some '\n' ∨ (after.head? = some '\r' ∧ (after.drop 1).head? = some '\n') then
            body q (dropJoin after) (mark + byteSize after - byteSize (dropJoin after)) acc
          else if after.head? = some '\r' then
            throw (Issue.expecting (Span.point (mark + 1)) "carriage return must be followed by newline"
              [.literal "\n"])
          else throw (Issue.expecting (Span.point mark) (invalidText q) [.literal "\n"])
        else
          match simpleEscape e, hexWidth e with
          | some ch, _ => body q more (pos + 2) (acc ++ [ch])
          | none, some width =>
            let digits := (more.takeWhile isHexDigit).take width
            if digits.length < width then
              throw (Issue.expecting (Span.point (pos + 2 + digits.length)) "too few unicode value digits"
                [.description "unicode hexadecimal value"])
            else
              let n := hexNumber digits
              if n.isValidChar then body q (more.drop width) (pos + 2 + width) (acc ++ [Char.ofNat n])
              else
                throw (Issue.expecting (Span.point (pos + 2)) "invalid value" [.description "unicode hexadecimal value"])
          | none, none =>
            throw (Issue.expecting ⟨pos + 1, pos + 2⟩ "missing escaped value" escapes)
    else if (q = .multilineBasic ∨ q = .multilineLiteral) ∧ c = '\n' then body q rest (pos + 1) (acc ++ [c])
    else if (q = .multilineBasic ∨ q = .multilineLiteral) ∧ c = '\r' then
      if rest.head? = some '\n' then body q (rest.drop 1) (pos + 2) (acc ++ ['\r', '\n'])
      else throw (Issue.expecting (Span.point (pos + 1)) "carriage return must be followed by newline" [.literal "\n"])
    else if plain q c then body q rest (pos + c.utf8Size) (acc ++ [c])
    else throw (Issue.expecting ⟨pos, pos + byteSize (refusedRun q c rest)⟩ (invalidText q) (allowed q))
termination_by cs.length
decreasing_by
  all_goals
    first
    | (simp only [List.length_drop, List.length_cons]; omega)
    | (apply Nat.lt_of_le_of_lt (length_dropJoin_le _); simp only [List.length_drop, List.length_cons]; omega)

end Text

/-- The opening and closing quotes of a string of the given quoting. -/
def Quoting.delimiter : Quoting → List Char
  | .basic => ['"']
  | .literal => ['\'']
  | .multilineBasic => ['"', '"', '"']
  | .multilineLiteral => ['\'', '\'', '\'']

/-- Decodes a string of quoting `q` written as `text` at `sp`. -/
def decodeString (q : Quoting) (text : String) (sp : Span) : Except Issue String := do
  let delim := q.delimiter
  let cs := text.toList
  if cs.take delim.length ≠ delim then
    throw (Issue.expecting sp.before (Text.invalidText q) [.literal (Text.quoteChar q)])
  let inner := cs.drop delim.length
  let opened := sp.start + delim.length
  let (inner, opened) :=
    if q = .multilineBasic ∨ q = .multilineLiteral then
      match inner with
      | '\n' :: rest => (rest, opened + 1)
      | '\r' :: '\n' :: rest => (rest, opened + 2)
      | _ => (inner, opened)
    else (inner, opened)
  let closed := inner.length ≥ delim.length ∧ inner.drop (inner.length - delim.length) = delim
  if !closed then throw (Issue.expecting sp.after (Text.invalidText q) [.literal (Text.quoteChar q)])
  let chars ← Text.body q (inner.take (inner.length - delim.length)) opened []
  pure (String.ofList chars)

/-- Whether `c` may stand in a bare key. -/
def bareKeyChar (c : Char) : Bool :=
  ('A' ≤ c ∧ c ≤ 'Z') ∨ ('a' ≤ c ∧ c ≤ 'z') ∨ c.isDigit ∨ c = '-' ∨ c = '_'

/-- What may stand in a bare key, as its problems say. -/
def bareKeyExpected : List Expected :=
  [.description "letters", .description "numbers", .literal "-", .literal "_"]

/-- The first run of characters of a bare key, starting at byte `pos`, that may not stand in one. -/
def bareKeyProblem : List Char → Nat → Option Issue
  | [], _ => none
  | c :: rest, pos =>
    if bareKeyChar c then bareKeyProblem rest (pos + c.utf8Size)
    else
      let run := c :: rest.takeWhile (!bareKeyChar ·)
      some (Issue.expecting ⟨pos, pos + byteSize run⟩ "invalid unquoted key" bareKeyExpected)

/-- Decodes a part of a key, giving its name and range. -/
def RawKey.decode (k : RawKey) : Except Issue (String × Span) :=
  match k.quoting with
  | none =>
    if k.text.isEmpty then throw (Issue.expecting k.span "unquoted keys cannot be empty" bareKeyExpected)
    else match bareKeyProblem k.text.toList k.span.start with
      | some issue => throw issue
      | none => pure (k.text, k.span)
  | some .multilineBasic =>
    throw (Issue.expecting k.span "keys cannot be multi-line basic strings"
      [.description "basic string", .description "literal string"])
  | some .multilineLiteral =>
    throw (Issue.expecting k.span "keys cannot be multi-line literal strings"
      [.description "basic string", .description "literal string"])
  | some q => do pure (← decodeString q k.text k.span, k.span)

end CommandEngine.Toml
