import CommandEngine.Toml.Error

/-!
# Tokens of a configuration document

Reading a document begins by cutting it into tokens, each with the byte range it covers. Cutting never fails: whatever
a token's text holds is judged later, by the syntax or by the decoding of keys and values.

* The marks `.`, `=`, `,`, `[`, `]`, `{` and `}` are a token each.
* A run of spaces and tabs is one blank token; a comment runs from `#` to the end of the line, before any carriage
  return; a line break is `\n`, `\r\n`, or a carriage return alone.
* A string runs from its opening quote to its closing one. A one-line string also stops before a line break, and a
  backslash in a basic string takes a following backslash or double quote with it. A string in three quotes runs to
  the first three closing quotes and takes up to two more, or else to the end of the document.
* Any other run of characters up to one of the marks, a blank, `#` or a line break is a bare word.

The tokens end with an empty end token at the end of the document. A byte order mark at the start is skipped, and the
ranges still count its three bytes.
-/

namespace CommandEngine.Toml

/-- How a string is quoted: basic strings take escapes and literal strings are taken as written; either may span
lines when written between three quotes. -/
inductive Quoting where
  | basic
  | literal
  | multilineBasic
  | multilineLiteral
  deriving DecidableEq, Repr, Inhabited

/-- What a token is. -/
inductive TokenKind where
  | dot
  | equals
  | comma
  | openBracket
  | closeBracket
  | openBrace
  | closeBrace
  | blank
  | comment
  | newline
  | string (quoting : Quoting)
  | bare
  | finish
  deriving DecidableEq, Repr, Inhabited

/-- A token with the byte range it covers and its text. -/
structure Token where
  kind : TokenKind
  span : Span
  text : String
  deriving Repr, Inhabited

/-- The number of bytes of a run of characters. -/
def byteSize (cs : List Char) : Nat :=
  (cs.map Char.utf8Size).foldr (· + ·) 0

namespace Token

/-- Whether a bare word stops before `c`. -/
def endsBare (c : Char) : Bool :=
  c = '.' ∨ c = '=' ∨ c = ',' ∨ c = '[' ∨ c = ']' ∨ c = '{' ∨ c = '}' ∨ c = ' ' ∨ c = '\t' ∨ c = '#' ∨ c = '\r' ∨
    c = '\n'

/-- The number of characters after the opening quote that a one-line literal string takes. -/
def literalLength : List Char → Nat
  | [] => 0
  | '\'' :: _ => 1
  | '\n' :: _ => 0
  | _ :: rest => literalLength rest + 1

/-- The number of characters after the opening quote that a one-line basic string takes. -/
def basicLength : List Char → Nat
  | [] => 0
  | '"' :: _ => 1
  | '\n' :: _ => 0
  | '\\' :: c :: rest => if c = '\\' ∨ c = '"' then basicLength rest + 2 else basicLength (c :: rest) + 1
  | _ :: rest => basicLength rest + 1

/-- Up to two more quotes `q` at the start of `cs`. -/
def extraQuotes (q : Char) (cs : List Char) : Nat :=
  min 2 (cs.takeWhile (· = q)).length

/-- The number of characters after the opening three quotes that a multi-line literal string takes. -/
def multilineLiteralLength : List Char → Nat
  | [] => 0
  | '\'' :: '\'' :: '\'' :: rest => 3 + extraQuotes '\'' rest
  | _ :: rest => multilineLiteralLength rest + 1

/-- The number of characters after the opening three quotes that a multi-line basic string takes. -/
def multilineBasicLength : List Char → Nat
  | [] => 0
  | '"' :: '"' :: '"' :: rest => 3 + extraQuotes '"' rest
  | '\\' :: c :: rest =>
    if c = '\\' ∨ c = '"' then multilineBasicLength rest + 2 else multilineBasicLength (c :: rest) + 1
  | _ :: rest => multilineBasicLength rest + 1

/-- The kind of the token that starts with `c` followed by `rest`, and how many characters of `rest` it takes. -/
def cut (c : Char) (rest : List Char) : TokenKind × Nat :=
  match c with
  | '.' => (.dot, 0)
  | '=' => (.equals, 0)
  | ',' => (.comma, 0)
  | '[' => (.openBracket, 0)
  | ']' => (.closeBracket, 0)
  | '{' => (.openBrace, 0)
  | '}' => (.closeBrace, 0)
  | ' ' | '\t' => (.blank, (rest.takeWhile fun d => d = ' ' ∨ d = '\t').length)
  | '#' => (.comment, (rest.takeWhile fun d => d ≠ '\r' ∧ d ≠ '\n').length)
  | '\n' => (.newline, 0)
  | '\r' => (.newline, if rest.head? = some '\n' then 1 else 0)
  | '\'' =>
    match rest with
    | '\'' :: '\'' :: more => (.string .multilineLiteral, 2 + multilineLiteralLength more)
    | _ => (.string .literal, literalLength rest)
  | '"' =>
    match rest with
    | '"' :: '"' :: more => (.string .multilineBasic, 2 + multilineBasicLength more)
    | _ => (.string .basic, basicLength rest)
  | _ => (.bare, (rest.takeWhile (!endsBare ·)).length)

/-- The tokens of `cs`, which starts at byte `offset`, ending with the end token. -/
def scanFrom (offset : Nat) : List Char → List Token
  | [] => [⟨.finish, Span.point offset, ""⟩]
  | c :: rest =>
    let (kind, extra) := cut c rest
    let taken := c :: rest.take extra
    let size := byteSize taken
    ⟨kind, ⟨offset, offset + size⟩, String.ofList taken⟩ :: scanFrom (offset + size) (rest.drop extra)
termination_by cs => cs.length
decreasing_by simp only [List.length_drop, List.length_cons]; omega

/-- The tokens of a document, after a byte order mark if it has one. -/
def scan (text : String) : List Token :=
  match text.toList with
  | '\uFEFF' :: rest => scanFrom 3 rest
  | cs => scanFrom 0 cs

end Token

end CommandEngine.Toml
