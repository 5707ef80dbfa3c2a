/-!
# Errors of the configuration reader

An error of the reader names a byte range of the document and says what is wrong there. Its text shows the line and
column where the range starts, the line itself, and carets under the range:

```
TOML parse error at line 2, column 15
  |
2 | concurrency = 2.5
  |               ^^^
invalid type: floating point `2.5`, expected usize
```

The column counts the characters before the start on its line, whenever the bytes from the start of the line up to and
including the byte at the start form whole characters, and counts bytes otherwise. At the end of the document the
column is one past the last byte. The carets number the bytes of the range, cut at the end of the line, and at least
one.

Most problems end with what was expected instead (`Issue.expecting`): a list of literal texts, shown quoted, and
descriptions, or `nothing`. A problem of the document as a whole, such as a key too long to follow, names no range
and is shown as its message alone.
-/

namespace CommandEngine.Toml

/-- A byte range `[start, stop)` of a document. -/
structure Span where
  start : Nat
  stop : Nat
  deriving DecidableEq, Repr, Inhabited

namespace Span

/-- The empty range where `sp` starts. -/
def before (sp : Span) : Span := ⟨sp.start, sp.start⟩

/-- The empty range where `sp` stops. -/
def after (sp : Span) : Span := ⟨sp.stop, sp.stop⟩

/-- The range from the start of `a` to the stop of `b`. -/
def join (a b : Span) : Span := ⟨a.start, b.stop⟩

/-- The empty range at byte `n`. -/
def point (n : Nat) : Span := ⟨n, n⟩

end Span

/-- What a problem says was expected instead: a literal text, shown quoted (a line break is named), or a description. -/
inductive Expected where
  | literal (text : String)
  | description (text : String)
  deriving DecidableEq, Repr, Inhabited

/-- How an expected item is shown. -/
def Expected.text : Expected → String
  | .literal "\n" => "newline"
  | .literal t => "`" ++ t ++ "`"
  | .description t => t

/-- A problem found in a document, before it is rendered against the document's text: at a byte range, or at none
for a problem of the whole document. -/
structure Issue where
  span : Option Span
  message : String
  deriving Repr, Inhabited

/-- The problem `what` at `sp`, followed by what was expected instead; an empty list reads `nothing`. -/
def Issue.expecting (sp : Span) (what : String) (expected : List Expected) : Issue :=
  ⟨some sp, what ++ ", expected " ++ (if expected.isEmpty then "nothing" else ", ".intercalate (expected.map Expected.text))⟩

/-- What is wrong with a document, and where. -/
structure Error where
  /-- The whole document. -/
  document : String
  span : Option Span
  message : String
  deriving Repr, Inhabited

/-- A line number (from zero) and a column (from zero) in a document. -/
structure Position where
  line : Nat
  column : Nat

/-- Whether a byte continues a character begun by an earlier byte. -/
def isContinuation (b : UInt8) : Bool :=
  0x80 ≤ b.toNat ∧ b.toNat < 0xC0

/-- Whether the byte at `i` is the last byte of its character. -/
def endsCharacter (bytes : List UInt8) (i : Nat) : Bool :=
  (bytes.getD i 0).toNat < 0x80 ∨
    (isContinuation (bytes.getD i 0) ∧ (i + 1 = bytes.length ∨ !isContinuation (bytes.getD (i + 1) 0)))

/-- The line and column at which the byte `index` of `bytes` lies; an index past the end lies one past the last byte. -/
def positionOf (bytes : List UInt8) (index : Nat) : Position :=
  if bytes.isEmpty then ⟨0, index⟩
  else
    let safe := min index (bytes.length - 1)
    let before := bytes.take safe
    let sinceNewline := (before.reverse.takeWhile (· ≠ 10)).length
    let lineStart := safe - sinceNewline
    let line := (before.take lineStart).count 10
    let column :=
      if endsCharacter bytes safe then (((bytes.take (safe + 1)).drop lineStart).filter (!isContinuation ·)).length - 1
      else sinceNewline
    ⟨line, column + (index - safe)⟩

/-- `n` spaces. -/
def spaces (n : Nat) : String :=
  String.ofList (List.replicate n ' ')

namespace Error

/-- The rendered text of the error, ending with a line break. -/
def render (e : Error) : String :=
  match e.span with
  | none => e.message ++ "\n"
  | some sp =>
    let pos := positionOf e.document.toUTF8.data.toList sp.start
    let lineNum := toString (pos.line + 1)
    let gutter := lineNum.length
    let content := (e.document.splitOn "\n").getD pos.line ""
    let width := min (sp.stop - sp.start) (content.utf8ByteSize - pos.column)
    "TOML parse error at line " ++ lineNum ++ ", column " ++ toString (pos.column + 1) ++ "\n" ++
      spaces (gutter + 1) ++ "|\n" ++
      lineNum ++ " | " ++ content ++ "\n" ++
      spaces (gutter + 1) ++ "|" ++ spaces (pos.column + 1) ++ "^" ++ String.ofList (List.replicate (width - 1) '^') ++
      "\n" ++ e.message ++ "\n"

end Error

end CommandEngine.Toml
