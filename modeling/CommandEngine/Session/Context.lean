import CommandEngine.Store

/-!
# Sessions on a bare context store

A context session applies a list of steps to one store and answers each: a write or removal answers the value it
replaced, a lookup the value found, and the listing steps the keys, the count, emptiness or the debug rendering.
-/

namespace CommandEngine.Session

/-- One step of a context session. -/
inductive ContextStep where
  | set (key value : String)
  | get (key : String)
  | remove (key : String)
  | contains (key : String)
  | keys
  | size
  | isEmpty
  | debug
  deriving Repr

/-- What one context step answers. -/
inductive ContextAnswer where
  | value (v : Option String)
  | flag (b : Bool)
  | keys (ks : List String)
  | count (n : Nat)
  | text (s : String)
  deriving Repr

/-- Applies one step to the store. -/
def ContextStep.apply (s : Store) : ContextStep → ContextAnswer × Store
  | .set k v => let (old, s') := s.set k v; (.value old, s')
  | .get k => (.value (s.get? k), s)
  | .remove k => let (old, s') := s.remove k; (.value old, s')
  | .contains k => (.flag (s.contains k), s)
  | .keys => (.keys s.keys, s)
  | .size => (.count s.size, s)
  | .isEmpty => (.flag s.isEmpty, s)
  | .debug => (.text s.debug, s)

/-- Applies the steps in order and gives every answer and the final store. -/
def runContext (s : Store) : List ContextStep → List ContextAnswer × Store
  | [] => ([], s)
  | step :: rest =>
    let (a, s) := step.apply s
    let (as, s) := runContext s rest
    (a :: as, s)

end CommandEngine.Session
