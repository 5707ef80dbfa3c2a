import CommandEngine.Toml.Token

/-!
# The syntax of a configuration document

The tokens of a document are read into statements: table headers, each with its key path, and key/value pairs. Keys
and values keep their text as written; nothing is decoded yet. The first problem of the syntax ends the reading, and
every problem of the syntax is reported before any problem of a key or a value.

* A statement stands on a line of its own, followed by blanks, a comment, and a line break or the end. Comments may
  hold tabs and any character but the other control characters; a carriage return must be followed by a line break.
* A key is a path of parts joined by dots. Where a part is missing (`a..b`, `[.a]`, `=1`), an empty part stands in its
  place, for the decoding to refuse.
* A value is a string, an array, an inline table, or a bare run: a bare word with the dots and bare words that follow
  it, also after a blank, so that `1979-05-27 07:32:00` and `3.14` are each one value.
* Arrays and inline tables may span lines, hold comments and end with a comma. They nest at most 80 deep. One left
  open at the end of the document is reported just after the last token that is not a blank, a comment or a line
  break.
* In an inline table, a key whose value is missing when the table closes keeps an empty value that no decoding accepts.
-/

namespace CommandEngine.Toml

/-- A part of a key as written: its text, its range, and its quoting if it is quoted. -/
structure RawKey where
  text : String
  span : Span
  quoting : Option Quoting
  deriving Repr, Inhabited

/-- A value as written. -/
inductive RawValue where
  /-- A string, or a bare run that may name a number, a boolean or a date and time. -/
  | scalar (text : String) (span : Span) (quoting : Option Quoting)
  | array (items : List RawValue) (span : Span)
  /-- An inline table: its pairs in order. -/
  | table (pairs : List (List RawKey × RawValue)) (span : Span)
  deriving Repr, Inhabited

/-- A statement of a document. -/
inductive Statement where
  /-- A table header; `many` says whether it has double brackets. The range runs from the first bracket to the last. -/
  | header (many : Bool) (path : List RawKey) (span : Span)
  | pair (path : List RawKey) (value : RawValue)
  deriving Repr, Inhabited

/-- How deep arrays and inline tables may nest. -/
def nestingLimit : Nat := 80

/-- A reader of tokens: it takes tokens from the front of the list, or stops at a problem. -/
abbrev TokenReader := StateT (List Token) (Except Issue)

namespace TokenReader

/-- Whether a token is neither a blank, a comment, a line break nor the end. -/
def Token.written (t : Token) : Bool :=
  match t.kind with
  | .blank | .comment | .newline | .finish => false
  | _ => true

/-- The empty range just after the last written token of `tokens`, or at byte 0 if there is none. -/
def contentEnd (tokens : List Token) : Span :=
  (((tokens.filter Token.written).getLast?).map (·.span.after)).getD (Span.point 0)

/-- The end token at byte 0, for a list of tokens that has run out. -/
def lastToken : Token := ⟨.finish, Span.point 0, ""⟩

/-- Takes the next token. -/
def next : TokenReader Token := do
  match ← get with
  | [] => pure lastToken
  | t :: rest => set rest; pure t

/-- The next token, left in place. -/
def peek : TokenReader Token := do
  pure ((← get).headD lastToken)

/-- Puts a token back. -/
def unread (t : Token) : TokenReader Unit :=
  modify (t :: ·)

/-- A fuel for a loop that takes at least one token a round. -/
def budget : TokenReader Nat := do
  pure ((← get).length + 1)

/-- Skips a blank. -/
def skipBlank : TokenReader Unit := do
  if (← peek).kind = .blank then discard next

/-- An empty key part where a part is missing, just before `t`. -/
def missingKey (t : Token) : RawKey :=
  ⟨"", t.span.before, none⟩

/-- The key part a string or bare token stands for. -/
def keyOf (t : Token) : RawKey :=
  match t.kind with
  | .string q => ⟨t.text, t.span, some q⟩
  | _ => ⟨t.text, t.span, none⟩

/-- Whether a character may stand in a comment. -/
def commentChar (c : Char) : Bool :=
  c = '\t' ∨ (0x20 ≤ c.toNat ∧ c.toNat ≤ 0x7E) ∨ 0x80 ≤ c.toNat

/-- The first character of a comment, starting at byte `pos`, that may not stand in a comment. -/
def commentProblem : List Char → Nat → Option Issue
  | [], _ => none
  | c :: rest, pos =>
    if commentChar c then commentProblem rest (pos + c.utf8Size)
    else some (Issue.expecting (Span.point pos) "invalid comment character" [.description "printable characters"])

/-- Checks the text of a comment token. -/
def checkComment (t : Token) : TokenReader Unit :=
  match commentProblem t.text.toList t.span.start with
  | some issue => throw issue
  | none => pure ()

/-- Checks a line break: a carriage return alone is refused. -/
def checkNewline (t : Token) : TokenReader Unit :=
  if t.text = "\r" then
    throw (Issue.expecting t.span.after "carriage return must be followed by newline" [.literal "\n"])
  else pure ()

/-- After a comment token: checks it, and the line break after it. -/
def afterComment (t : Token) : TokenReader Unit := do
  checkComment t
  let u ← peek
  if u.kind = .newline then do discard next; checkNewline u

/-- The rest of a key path, at most `fuel` tokens of it. With `due` a part is due (after a dot), and otherwise a dot
may continue the path. Gives the path and whether it ended after a part. -/
def keyTail : Nat → Bool → List RawKey → TokenReader (List RawKey × Bool)
  | 0, _, acc => pure (acc.reverse, true)
  | fuel + 1, false, acc => do
    skipBlank
    if (← peek).kind = .dot then do discard next; keyTail fuel true acc
    else pure (acc.reverse, true)
  | fuel + 1, true, acc => do
    let t ← next
    match t.kind with
    | .blank => keyTail fuel true acc
    | .dot => keyTail fuel true (missingKey t :: acc)
    | .string _ | .bare => keyTail fuel false (keyOf t :: acc)
    | _ => do unread t; pure ((missingKey t :: acc).reverse, false)

/-- Skips the rest of a line after a table header whose key ended early. -/
def skipLine : Nat → TokenReader Unit
  | 0 => pure ()
  | fuel + 1 => do
    let t ← next
    match t.kind with
    | .newline => checkNewline t
    | .comment => afterComment t
    | .finish => unread t
    | _ => skipLine fuel

/-- The end of a statement: blanks, then a comment, a line break or the end of the document. -/
def lineEnd : Nat → TokenReader Unit
  | 0 => pure ()
  | fuel + 1 => do
    let t ← next
    match t.kind with
    | .blank => lineEnd fuel
    | .comment => afterComment t
    | .newline => checkNewline t
    | .finish => unread t
    | _ => throw (Issue.expecting t.span.before "unexpected key or value" [.literal "\n", .literal "#"])

/-- A bare run: the bare word or dot `t` read so far, then dots and bare words, and a blank followed by a bare word. -/
def bareRun : Nat → String → Span → TokenReader RawValue
  | 0, text, sp => pure (.scalar text sp none)
  | fuel + 1, text, sp => do
    let u ← peek
    match u.kind with
    | .bare | .dot => do discard next; bareRun fuel (text ++ u.text) (sp.join u.span)
    | .blank =>
      match (← get) with
      | _ :: w :: rest =>
        if w.kind = .bare then do set rest; bareRun fuel (text ++ u.text ++ w.text) (sp.join w.span)
        else pure (.scalar text sp none)
      | _ => pure (.scalar text sp none)
    | _ => pure (.scalar text sp none)

/-- A value, where `nested` reads an array or inline table from its opening token, if one may still open here. -/
def valueWith (nested : Option (Token → TokenReader RawValue)) : TokenReader RawValue := do
  let t ← next
  match t.kind with
  | .comment | .comma | .newline | .finish | .blank => do unread t; pure (.scalar "" t.span.before none)
  | .equals => throw (Issue.expecting t.span "extra `=`" [])
  | .closeBrace => throw (Issue.expecting t.span.before "missing inline table opening" [.literal "\x7b"])
  | .closeBracket => throw (Issue.expecting t.span.before "missing array opening" [.literal "["])
  | .openBracket | .openBrace =>
    match nested with
    | some read => read t
    | none => throw ⟨some t.span, "cannot recurse further; max recursion depth met"⟩
  | .string q => pure (.scalar t.text t.span (some q))
  | .bare | .dot => bareRun (← budget) t.text t.span

/-- The items of an array opened by `start`, each read by `item`; `needsComma` says whether an item was just read, and
`ending` is where an array left open is reported. -/
def arrayItems (item : TokenReader RawValue) (ending : Span) (start : Token) :
    Nat → Bool → List RawValue → TokenReader RawValue
  | 0, _, acc => pure (.array acc.reverse start.span)
  | fuel + 1, needsComma, acc => do
    let t ← next
    match t.kind with
    | .comment => do afterComment t; arrayItems item ending start fuel needsComma acc
    | .blank => arrayItems item ending start fuel needsComma acc
    | .newline => do checkNewline t; arrayItems item ending start fuel needsComma acc
    | .finish => throw (Issue.expecting ending "unclosed array" [.literal "]"])
    | .comma =>
      if needsComma then arrayItems item ending start fuel false acc
      else throw (Issue.expecting t.span "extra comma in array" [.description "value"])
    | .equals => throw (Issue.expecting t.span "unexpected `=` in array" [.description "value", .literal "]"])
    | .closeBracket => pure (.array acc.reverse (start.span.join t.span))
    | _ => do
      if needsComma then throw (Issue.expecting t.span.before "missing comma between array elements" [.literal ","])
      unread t
      let v ← item
      arrayItems item ending start fuel true (v :: acc)

/-- What an inline table needs next. -/
inductive Due where
  | key
  | equals
  | value
  | comma
  deriving DecidableEq, Repr, Inhabited

/-- What is expected when an inline table needs `d`. -/
def Due.expected : Due → List Expected
  | .key => [.description "key"]
  | .equals => [.literal "="]
  | .value => [.description "value"]
  | .comma => [.literal ","]

/-- The pairs of an inline table opened by `start`, each value read by `item`; `keys` is the path of the pair being
read, and `ending` is where a table left open is reported. -/
def tablePairs (item : TokenReader RawValue) (ending : Span) (start : Token) :
    Nat → Due → List RawKey → List (List RawKey × RawValue) → TokenReader RawValue
  | 0, _, _, acc => pure (.table acc.reverse start.span)
  | fuel + 1, due, keys, acc => do
    let t ← next
    let readValue : TokenReader RawValue := do
      unread t
      let v ← item
      tablePairs item ending start fuel .comma [] ((keys, v) :: acc)
    match t.kind with
    | .comment => do afterComment t; tablePairs item ending start fuel due keys acc
    | .blank => tablePairs item ending start fuel due keys acc
    | .newline => do checkNewline t; tablePairs item ending start fuel due keys acc
    | .finish => throw (Issue.expecting ending "unclosed inline table" [.literal "\x7d"])
    | .comma =>
      if due = .comma then tablePairs item ending start fuel .key [] acc
      else throw (Issue.expecting t.span.before "extra comma in inline table" due.expected)
    | .equals =>
      match due with
      | .key => tablePairs item ending start fuel .value [missingKey t] acc
      | .equals => tablePairs item ending start fuel .value keys acc
      | _ => throw (Issue.expecting t.span.before "extra assignment between key-value pairs" due.expected)
    | .closeBrace =>
      let whole := start.span.join t.span
      match due with
      | .key | .comma => pure (.table acc.reverse whole)
      | .equals | .value => pure (.table ((keys, .scalar "" t.span.before (some .literal)) :: acc).reverse whole)
    | .closeBracket =>
      if due = .value then readValue
      else throw (Issue.expecting t.span.before "invalid inline table element" due.expected)
    | .openBrace | .openBracket =>
      match due with
      | .value => readValue
      | .equals => throw (Issue.expecting t.span.before "missing assignment between key-value pairs" due.expected)
      | _ => throw (Issue.expecting t.span.before "missing key for inline table element" due.expected)
    | .string _ | .bare | .dot =>
      match due with
      | .key => do
        let (path, _) ←
          if t.kind = .dot then keyTail (← budget) true [missingKey t] else keyTail (← budget) false [keyOf t]
        tablePairs item ending start fuel .equals path acc
      | .equals => throw (Issue.expecting t.span.before "missing assignment between key-value pairs" due.expected)
      | .value => readValue
      | .comma => throw (Issue.expecting t.span.before "missing comma between key-value pairs" due.expected)

/-- An array or inline table opened by `t`, its values read by `item`; one left open is reported at `ending`. -/
def compound (item : TokenReader RawValue) (ending : Span) (t : Token) : TokenReader RawValue := do
  if t.kind = .openBracket then arrayItems item ending t (← budget) false []
  else tablePairs item ending t (← budget) .key [] []

/-- A value in which arrays and inline tables may still nest `levels` deep; one left open is reported at `ending`. -/
def value (ending : Span) : Nat → TokenReader RawValue
  | 0 => valueWith none
  | levels + 1 => valueWith (some (compound (value ending levels) ending))

/-- A key/value pair whose path has been read: the equals sign, the value and the end of the line. A missing equals
sign is the problem `missing`; an array or inline table left open is reported at `ending`. -/
def pairAfter (ending : Span) (missing : String) (path : List RawKey) : TokenReader Statement := do
  let t ← peek
  if t.kind = .equals then do
    discard next
    skipBlank
    let v ← value ending nestingLimit
    lineEnd (← budget)
    pure (.pair path v)
  else throw (Issue.expecting t.span.before missing [.literal "="])

/-- A table header opened by the bracket `t`. -/
def header (t : Token) : TokenReader Statement := do
  let many := (← peek).kind = .openBracket
  if many then discard next
  skipBlank
  let (path, whole) ← keyTail (← budget) true []
  skipBlank
  let c ← peek
  if c.kind = .closeBracket then do
    discard next
    if many then do
      let c2 ← peek
      if c2.kind = .closeBracket then do
        discard next
        lineEnd (← budget)
        pure (.header true path (t.span.join c2.span))
      else throw (Issue.expecting c.span.after "unclosed array table" [.literal "]"])
    else do
      lineEnd (← budget)
      pure (.header false path (t.span.join c.span))
  else if whole then
    let last := (path.getLast?.map (·.span)).getD t.span
    throw (Issue.expecting last.after (if many then "unclosed array table" else "unclosed table")
      [.literal (if many then "]]" else "]")])
  else do
    skipLine (← budget)
    pure (.header many path t.span)

/-- The statements of the rest of the document, at most `fuel` tokens of it, after `acc` (newest first); an array or
inline table left open is reported at `ending`. -/
def statements (ending : Span) : Nat → List Statement → TokenReader (List Statement)
  | 0, acc => pure acc.reverse
  | fuel + 1, acc => do
    let t ← next
    match t.kind with
    | .finish => pure acc.reverse
    | .blank => statements ending fuel acc
    | .newline => do checkNewline t; statements ending fuel acc
    | .comment => do afterComment t; statements ending fuel acc
    | .openBracket => do let s ← header t; statements ending fuel (s :: acc)
    | .closeBracket => throw (Issue.expecting t.span.before "missing table open" [.literal "["])
    | .equals => do
      unread t
      let s ← pairAfter ending "key with no value" [missingKey t]
      statements ending fuel (s :: acc)
    | .dot => do
      let (path, _) ← keyTail (← budget) true [missingKey t]
      skipBlank
      let s ← pairAfter ending "missing value for key" path
      statements ending fuel (s :: acc)
    | .comma | .openBrace | .closeBrace =>
      throw (Issue.expecting t.span.before "invalid key-value pair" [.description "key"])
    | .string _ | .bare => do
      let (path, _) ← keyTail (← budget) false [keyOf t]
      skipBlank
      let s ← pairAfter ending "key with no value" path
      statements ending fuel (s :: acc)

end TokenReader

/-- The statements of a document given as tokens, or its first problem of syntax. -/
def Statement.ofTokens (tokens : List Token) : Except Issue (List Statement) :=
  (TokenReader.statements (TokenReader.contentEnd tokens) (tokens.length + 1) []).run' tokens

end CommandEngine.Toml
