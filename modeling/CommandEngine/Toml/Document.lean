import CommandEngine.Toml.Scalar

/-!
# Configuration documents

A configuration document is a tree of tables. Every value carries the byte range it was read from, and every key the
range of its name, so that a problem found later can point at them. A table made by a header spans its header; an
array of tables spans its first header; a table made on the way to a key spans that key.

The statements are taken in order: a header ends the table before it, a pair goes to the table of the last header.
Each key part is decoded, then the value, then the pair is placed, and the first problem ends the building.

Tables come about in four ways, and the way decides what may be added later:

* a table named by a header may be named by no second header;
* a table made as the parent of a header may be named by a header once;
* a table made by a dotted key may be extended by dotted keys only, and named by no header;
* an inline table is closed.

A dotted key or a header path passes through tables and through the last table of an array of tables; passing through
any other value is refused (`cannot extend value of type ...`). Defining a key twice is a duplicate, and so is a dotted
key that passes through, or ends in, a table made by a header; inside an inline table, a dotted key that passes through
an inline table written as a value is a duplicate too. A key of more than 80 parts is refused as too long to follow.
-/

namespace CommandEngine.Toml

/-- How a table came about. -/
inductive TableKind where
  | header
  | implicit
  | dotted
  | inline
  deriving DecidableEq, Repr, Inhabited

/-- A value of a document with the byte range it was read from. -/
inductive Node where
  | scalar (v : Scalar) (span : Span)
  /-- An array; `ofTables` says whether it was made by headers with double brackets. -/
  | array (items : List Node) (ofTables : Bool) (span : Span)
  | table (kind : TableKind) (entries : List (String × Span × Node)) (span : Span)
  deriving Repr, Inhabited

/-- The entries of a table: each key with the range of its name and its value, in the order they were made. -/
abbrev Entries := List (String × Span × Node)

/-- A decoded key part and its range. -/
abbrev Key := String × Span

namespace Node

/-- The byte range of the value. -/
def span : Node → Span
  | .scalar _ s | .array _ _ s | .table _ _ s => s

/-- The name of the kind of a value, as the problems of extending it say. -/
def kindName : Node → String
  | .scalar (.string _) _ => "string"
  | .scalar (.integer _) _ => "integer"
  | .scalar (.float _) _ => "float"
  | .scalar (.boolean _) _ => "boolean"
  | .scalar (.datetime _) _ => "datetime"
  | .array _ _ _ => "array"
  | .table .inline _ _ => "inline table"
  | .table _ _ _ => "table"

end Node

/-- The value under `k`. -/
def lookup (es : Entries) (k : String) : Option Node :=
  (es.find? (·.1 = k)).map (·.2.2)

/-- The entries with the value under `k` replaced. -/
def replace (es : Entries) (k : String) (n : Node) : Entries :=
  es.map fun e => if e.1 = k then (e.1, e.2.1, n) else e

/-- The entries without the key `k`. -/
def eraseEntry (es : Entries) (k : String) : Entries :=
  es.filter (·.1 ≠ k)

/-- The problem of passing through the value `n` under a key at `sp`. -/
def cannotExtend (sp : Span) (n : Node) : Issue :=
  ⟨some sp, "cannot extend value of type " ++ n.kindName ++ " with a dotted key"⟩

/-- How a key path is followed through the tables: as the path of a table header, as a dotted key of a statement, or as
a dotted key inside an inline table. -/
inductive Reach where
  | header
  | dotted
  | inline
  deriving DecidableEq, Repr, Inhabited

/-- The kind of the tables that a path followed this way makes where they are missing. -/
def Reach.made : Reach → TableKind
  | .header => .implicit
  | .dotted | .inline => .dotted

/-- Applies `f` to the table at `path` below the table `es` of kind `kind`, following the path as `reach` says: missing
tables are made, and the last table of an array of tables is passed through. `f` is given the kind of the table it
works on. -/
def descend {α : Type} (reach : Reach) (f : TableKind → Entries → Except Issue (Entries × α)) :
    List Key → TableKind → Entries → Except Issue (Entries × α)
  | [], kind, es => f kind es
  | (k, sp) :: rest, _, es =>
    match lookup es k with
    | none => do
      let (inner, a) ← descend reach f rest reach.made []
      pure (es ++ [(k, sp, .table reach.made inner sp)], a)
    | some (.table kind inner tsp) =>
      match reach, kind with
      | .inline, .inline | .dotted, .header => throw ⟨some sp, "duplicate key"⟩
      | _, .inline => throw (cannotExtend sp (.table kind inner tsp))
      | _, _ => do
        let (inner, a) ← descend reach f rest kind inner
        pure (replace es k (.table kind inner tsp), a)
    | some (.array items true asp) =>
      match items.getLast? with
      | some (.table kind inner tsp) => do
        let (inner, a) ← descend reach f rest kind inner
        pure (replace es k (.array (items.dropLast ++ [.table kind inner tsp]) true asp), a)
      | _ => throw (cannotExtend sp (.array items true asp))
    | some n => throw (cannotExtend sp n)

/-- Places the pair of the dotted key `path ++ [key]` and `value` in the table `es` of kind `kind`, the key followed as
`reach` says. -/
def placePair (reach : Reach) (kind : TableKind) (path : List Key) (key : Key) (value : Node) (es : Entries) :
    Except Issue Entries := do
  let (es, ()) ← descend reach (fun parent inner =>
    if (parent = .dotted) = path.isEmpty then throw ⟨some key.2, "duplicate key"⟩
    else match lookup inner key.1 with
      | some _ => throw ⟨some key.2, "duplicate key"⟩
      | none => pure (inner ++ [(key.1, key.2, value)], ())) path kind es
  pure es

/-- How many parts a key may have. -/
def keyLimit : Nat := 80

/-- Decodes the parts of a key in order; a key of more than `keyLimit` parts is refused. -/
def decodeKey (keys : List RawKey) : Except Issue (List Key) := do
  let path ← keys.mapM RawKey.decode
  if path.length > keyLimit then throw ⟨none, "recursion limit"⟩
  pure path

mutual

/-- Decodes a value. -/
def RawValue.decode : RawValue → Except Issue Node
  | .scalar text sp q => do pure (.scalar (← decodeScalar text sp q) sp)
  | .array items sp => do pure (.array (← RawValue.decodeAll items) false sp)
  | .table pairs sp => do pure (.table .inline (← RawValue.decodePairs pairs []) sp)

/-- Decodes values in order. -/
def RawValue.decodeAll : List RawValue → Except Issue (List Node)
  | [] => pure []
  | v :: vs => do
    let n ← v.decode
    pure (n :: (← RawValue.decodeAll vs))

/-- Decodes the pairs of an inline table in order, placing each in the table `es`. -/
def RawValue.decodePairs : List (List RawKey × RawValue) → Entries → Except Issue Entries
  | [], es => pure es
  | (keys, v) :: rest, es => do
    let path ← decodeKey keys
    let n ← v.decode
    let es ← placePair .inline .inline path.dropLast (path.getLastD ("", ⟨0, 0⟩)) n es
    RawValue.decodePairs rest es

end

/-- A table header: whether it has double brackets, its decoded path and its range. -/
structure Header where
  many : Bool
  path : List Key
  span : Span
  deriving Repr, Inhabited

/-- A document being built: the tables so far, the entries of the table of the last header, and that header. -/
structure Builder where
  root : Entries := []
  current : Entries := []
  header : Option Header := none
  deriving Inhabited

namespace Builder

/-- Ends the table of the last header, placing it in the document; before the first header the pairs read so far are
the top-level table. -/
def finish (b : Builder) : Except Issue Builder :=
  match b.header with
  | none => pure { b with root := b.current, current := [] }
  | some h =>
    match h.path.getLast? with
    | none => pure { b with current := [], header := none }
    | some (k, ksp) => do
      let table := Node.table .header b.current h.span
      let (root, ()) ← descend .header (fun _ es =>
        if h.many then
          match lookup es k with
          | none => pure (es ++ [(k, ksp, .array [table] true h.span)], ())
          | some (.array items true asp) => pure (replace es k (.array (items ++ [table]) true asp), ())
          | some _ => throw ⟨some ksp, "duplicate key"⟩
        else pure (eraseEntry es k ++ [(k, ksp, table)], ())) h.path.dropLast .header b.root
      pure { root, current := [], header := none }

/-- Starts the table of a header. A table made as the parent of an earlier header is taken up again; any other table
under the name is a duplicate. -/
def start (b : Builder) (h : Header) : Except Issue Builder := do
  match h.many, h.path.getLast? with
  | false, some (k, ksp) =>
    let (root, current) ← descend .header (fun _ es =>
      match lookup es k with
      | none => pure (es, [])
      | some (.table .implicit inner _) => pure (eraseEntry es k, inner)
      | some _ => throw ⟨some ksp, "duplicate key"⟩) h.path.dropLast .header b.root
    pure { root, current, header := some h }
  | _, _ => pure { b with current := [], header := some h }

/-- Takes in one statement. -/
def step (b : Builder) : Statement → Except Issue Builder
  | .header many keys sp => do
    let b ← b.finish
    let path ← decodeKey keys
    b.start ⟨many, path, sp⟩
  | .pair keys v => do
    let path ← decodeKey keys
    let n ← v.decode
    let current ← placePair .dotted .header path.dropLast (path.getLastD ("", ⟨0, 0⟩)) n b.current
    pure { b with current }

end Builder

/-- The top-level entries of the document made of `statements`, or its first problem. -/
def Node.ofStatements (statements : List Statement) : Except Issue Entries := do
  let b ← statements.foldlM Builder.step {}
  let b ← b.finish
  pure b.root

end CommandEngine.Toml
