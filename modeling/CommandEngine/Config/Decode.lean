import CommandEngine.Config.Model
import CommandEngine.Toml.Reader
import CommandEngine.Number.Shortest
import CommandEngine.Text.Quoted

/-!
# Reading a configuration from a document

A document is read into a configuration section by section, in the order of the keys (as strings), and the first
problem ends the reading. An unknown key is refused with the list of keys expected; a value of the wrong kind is
refused by naming what was found and what was expected; a name that is no policy or level is refused with the names
expected. A section may also be given as an array, whose items fill its fields in order.

Numbers are taken as machine numbers here: an integer as a 64-bit one, signed or not, else a 128-bit one, and one
beyond all of them is a problem; a float as the nearest binary64 number, and one beyond the greatest is a problem.

`parse` reads the text and then the document; `load` first reads the file from a file tree.
-/

namespace CommandEngine.Config

open CommandEngine.Toml

/-- The text of a float as a machine number: its shortest decimal written out, `inf`, `-inf` or `NaN`; none when it lies
beyond the greatest finite number. -/
def floatText : FloatValue → Option String
  | .infinite negative => some (if negative then "-inf" else "inf")
  | .nan => some "NaN"
  | .finite negative mantissa exponent => (Binary64.ofDecimal negative mantissa exponent).map Binary64.text

/-- The least signed 64-bit integer, -2^63. -/
def signedWordMin : Int := -9223372036854775808

/-- One more than the greatest unsigned 64-bit integer, 2^64. -/
def wordLimit : Int := 18446744073709551616

/-- One more than the greatest signed 128-bit integer, 2^127. -/
def wideLimit : Int := 170141183460469231731687303715884105728

/-- One more than the greatest unsigned 128-bit integer, 2^128. -/
def wideWordLimit : Int := 340282366920938463463374607431768211456

/-- The machine integers an integer is read as: a 64-bit one, signed or not, else a signed or an unsigned 128-bit
one. -/
inductive Width where
  | word
  | wideSigned
  | wideUnsigned
  deriving DecidableEq, Repr

/-- The narrowest machine integer that holds `n`, if any does. -/
def widthOf (n : Int) : Option Width :=
  if signedWordMin ≤ n ∧ n < wordLimit then some .word
  else if -wideLimit ≤ n ∧ n < wideLimit then some .wideSigned
  else if 0 ≤ n ∧ n < wideWordLimit then some .wideUnsigned
  else none

/-- The problem of an integer that no machine integer holds. -/
def integerOverflow (sp : Span) : Issue :=
  ⟨some sp, "integer number overflowed"⟩

/-- How a value is described when it is not expected; a number that no machine number holds is a problem of its
own. -/
def describe : Node → Except Issue String
  | .scalar (.string s) _ => pure ("string " ++ Text.quote s)
  | .scalar (.integer none) sp => throw (integerOverflow sp)
  | .scalar (.integer (some n)) sp =>
    match widthOf n with
    | some .word => pure ("integer `" ++ toString n ++ "`")
    | some .wideSigned => pure ("integer `" ++ toString n ++ "` as i128")
    | some .wideUnsigned => pure ("integer `" ++ toString n ++ "` as u128")
    | none => throw (integerOverflow sp)
  | .scalar (.float f) sp =>
    match floatText f with
    | some t => pure ("floating point `" ++ t ++ "`")
    | none => throw ⟨some sp, "floating-point number overflowed"⟩
  | .scalar (.boolean b) _ => pure ("boolean `" ++ toString b ++ "`")
  | .scalar (.datetime _) _ => pure "map"
  | .array _ _ _ => pure "sequence"
  | .table _ _ _ => pure "map"

/-- The name of the kind of a scalar, as the problem of a variant that should have been empty says. -/
def scalarKind : Scalar → String
  | .string _ => "string"
  | .integer _ => "integer"
  | .float _ => "float"
  | .boolean _ => "boolean"
  | .datetime _ => "datetime"

/-- The list of expected names: one, two joined by `or`, or more after `one of`. -/
def expectedText (names : List String) : String :=
  match names with
  | [] => "nothing"
  | [a] => "`" ++ a ++ "`"
  | [a, b] => "`" ++ a ++ "` or `" ++ b ++ "`"
  | _ => "one of " ++ ", ".intercalate (names.map fun n => "`" ++ n ++ "`")

/-- The problem of a value of the wrong kind. -/
def wrongKind {α : Type} (n : Node) (expected : String) : Except Issue α := do
  throw ⟨some n.span, "invalid type: " ++ (← describe n) ++ ", expected " ++ expected⟩

/-- The problem of an unknown key. -/
def unknownField {α : Type} (k : String) (sp : Span) (fields : List String) : Except Issue α :=
  .error ⟨some sp, "unknown field `" ++ k ++ "`, expected " ++ expectedText fields⟩

/-- Reads a worker count: an integer from zero to 2^64 - 1. -/
def readCount (n : Node) : Except Issue Nat :=
  match n with
  | .scalar (.integer (some i)) sp =>
    if widthOf i = some .word then
      if i < 0 then .error ⟨some sp, "invalid value: integer `" ++ toString i ++ "`, expected usize"⟩ else .ok i.toNat
    else wrongKind n "usize"
  | _ => wrongKind n "usize"

/-- Checks the value under the name of a variant that carries nothing: an empty table or an empty array. -/
def unitVariant (v : Node) : Except Issue Unit :=
  match v with
  | .array [] _ _ | .table _ [] _ => .ok ()
  | .array _ _ sp => .error ⟨some sp, "expected empty array"⟩
  | .table _ _ sp => .error ⟨some sp, "expected empty table"⟩
  | .scalar s sp => .error ⟨some sp, "expected table, found " ++ scalarKind s⟩

/-- Reads one of the names `variants`, given as a string or as a table with that name as its one key. -/
def readVariant {α : Type} (variants : List (String × α)) (n : Node) : Except Issue α :=
  let pick (name : String) (sp : Span) : Except Issue α :=
    match variants.find? (·.1 = name) with
    | some (_, v) => .ok v
    | none => .error ⟨some sp, "unknown variant `" ++ name ++ "`, expected " ++ expectedText (variants.map (·.1))⟩
  match n with
  | .scalar (.string s) sp => pick s sp
  | .table _ [] sp => .error ⟨some sp, "wanted exactly 1 element, found 0 elements"⟩
  | .table _ [(k, ksp, v)] _ => do
    let a ← pick k ksp
    unitVariant v
    pure a
  | .table _ _ sp => .error ⟨some sp, "wanted exactly 1 element, more than 1 element"⟩
  | _ => .error ⟨some n.span, "wanted string or table"⟩

/-- The failure policies by name. -/
def policyNames : List (String × FailurePolicy) :=
  [("continue", .runDependents), ("skip_dependents", .skipDependents)]

/-- The log levels by name; `warning` is another name of `warn`. -/
def levelNames : List (String × LogLevel) :=
  [("error", .error), ("warn", .warn), ("warning", .warn), ("info", .info), ("debug", .debug), ("trace", .trace)]

/-- The key under which a date or time reaches a section. -/
def datetimeKey : String :=
  "$__toml_private_datetime"

/-- The entries of a table in the order of their keys. -/
def sortedEntries (es : Entries) : Entries :=
  es.mergeSort fun a b => !decide (b.1 < a.1)

/-- Reads a section of fields `fields`: from a table, key by key in the order of the keys with `field`, or from an
array, item by item in field order with `item`; anything else is refused as not the section `what`. -/
def readSection {σ : Type} (start : σ) (what : String) (fields : List String)
    (field : σ → String → Node → Except Issue σ) (item : σ → Nat → Node → Except Issue σ) (n : Node) :
    Except Issue σ :=
  match n with
  | .table _ es _ =>
    (sortedEntries es).foldlM
      (fun s (k, ksp, v) => if fields.contains k then field s k v else unknownField k ksp fields) start
  | .array items _ _ => (items.take fields.length).zipIdx.foldlM (fun s (v, i) => item s i v) start
  | .scalar (.datetime _) sp => unknownField datetimeKey sp fields
  | _ => wrongKind n ("struct " ++ what)

/-- Reads the `[scheduler]` section. -/
def readScheduler : Node → Except Issue SchedulerConfig :=
  readSection {} "SchedulerConfig" ["concurrency", "failure_policy"]
    (fun s k v =>
      if k = "concurrency" then do pure { s with concurrency := some (← readCount v) }
      else do pure { s with failurePolicy := ← readVariant policyNames v })
    (fun s i v =>
      if i = 0 then do pure { s with concurrency := some (← readCount v) }
      else do pure { s with failurePolicy := ← readVariant policyNames v })

/-- Reads the `[logging]` section. -/
def readLogging : Node → Except Issue LoggingConfig :=
  readSection {} "LoggingConfig" ["level"]
    (fun s _ v => do pure { s with level := some (← readVariant levelNames v) })
    (fun s _ v => do pure { s with level := some (← readVariant levelNames v) })

/-- Reads a configuration from the top-level entries of a document, in the order of their keys. -/
def readConfig (es : Entries) : Except Issue EngineConfig :=
  (sortedEntries es).foldlM (fun c (k, ksp, v) =>
    if k = "scheduler" then do pure { c with scheduler := ← readScheduler v }
    else if k = "logging" then do pure { c with logging := ← readLogging v }
    else unknownField k ksp ["scheduler", "logging"]) {}

/-- Reads a configuration from its text, without validating it. -/
def parse (text : String) : Except EngineError EngineConfig :=
  match readDocument text >>= readConfig with
  | .ok c => .ok c
  | .error issue => .error (.toml { document := text, span := issue.span, message := issue.message })

/-- Reads the configuration file at `path`, validating it when `check` holds. -/
def load (files : FileTree) (path : String) (check : Bool) : Except EngineError EngineConfig := do
  let text ← match files.read path with
    | .ok t => pure t
    | .error e => throw (.io e)
  let c ← parse text
  if check then c.validate
  pure c

end CommandEngine.Config
