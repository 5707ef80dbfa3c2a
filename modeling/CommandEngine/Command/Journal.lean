/-!
# Journals and concurrency probes

Instrumented commands record what the engine does with them in a shared journal: when they start, when they finish,
and when their cleanup runs. A probe counts how many probed commands are executing at once and keeps the largest count
it saw.
-/

namespace CommandEngine

/-- What a journal entry records. -/
inductive Mark where
  | started
  | finished
  | postprocessed
  deriving DecidableEq, Repr, Inhabited

/-- A log of `(command name, mark)` entries in the order they were recorded. -/
structure Journal where
  entries : Array (String × Mark) := #[]
  deriving Repr, Inhabited

namespace Journal

/-- The journal with one more entry. -/
def record (j : Journal) (name : String) (m : Mark) : Journal :=
  ⟨j.entries.push (name, m)⟩

/-- The names of the entries with mark `m`, in recording order. -/
def names (j : Journal) (m : Mark) : List String :=
  (j.entries.toList.filter (·.2 = m)).map (·.1)

/-- The number of entries of `name` with mark `m`. -/
def count (j : Journal) (name : String) (m : Mark) : Nat :=
  (j.entries.toList.filter (fun e => e.1 = name ∧ e.2 = m)).length

/-- The position of the first entry of `name` with mark `m`. -/
def first? (j : Journal) (name : String) (m : Mark) : Option Nat :=
  j.entries.toList.findIdx? (fun e => e.1 = name ∧ e.2 = m)

/-- The number of entries. -/
def size (j : Journal) : Nat :=
  j.entries.size

end Journal

/-- Counts the probed commands executing at once. -/
structure Probe where
  current : Nat := 0
  peak : Nat := 0
  deriving Repr, Inhabited

namespace Probe

/-- A probed command starts executing. -/
def enter (p : Probe) : Probe :=
  { current := p.current + 1, peak := max p.peak (p.current + 1) }

/-- A probed command stops executing. -/
def exit (p : Probe) : Probe :=
  { p with current := p.current - 1 }

/-- The probe sees `n` probed commands executing at once. -/
def observe (p : Probe) (n : Nat) : Probe :=
  { p with peak := max p.peak n }

end Probe

end CommandEngine
