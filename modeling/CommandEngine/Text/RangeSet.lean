/-!
# Sets of code points given as sorted ranges

The character classes that the engine's text rules need (blanks, cased letters, combining marks, characters that
print as themselves) are standard Unicode properties. Each is stored as a sorted array of disjoint inclusive ranges of
code points, read from a compact table text, and asked for membership by bisection.
-/

namespace CommandEngine.Text

/-- A set of code points, as sorted, disjoint, inclusive ranges. -/
structure RangeSet where
  ranges : Array (Nat × Nat)

namespace RangeSet

/-- The value of one hexadecimal digit. -/
def hexDigit? (c : Char) : Option Nat :=
  if '0' ≤ c ∧ c ≤ '9' then some (c.toNat - '0'.toNat)
  else if 'a' ≤ c ∧ c ≤ 'f' then some (c.toNat - 'a'.toNat + 10)
  else if 'A' ≤ c ∧ c ≤ 'F' then some (c.toNat - 'A'.toNat + 10)
  else none

/-- The value of a non-empty hexadecimal numeral. -/
def ofHex? (s : String) : Option Nat :=
  match s.toList with
  | [] => none
  | cs => cs.foldlM (fun acc c => (hexDigit? c).map (acc * 16 + ·)) 0

/-- Reads a table written as blank-separated items `lo-hi` in hexadecimal; an item of another shape is dropped. -/
def ofTable (text : String) : RangeSet :=
  ⟨((text.splitOn " ").filterMap fun item =>
      match item.splitOn "-" with
      | [lo, hi] => do
        let a ← ofHex? lo
        let b ← ofHex? hi
        pure (a, b)
      | _ => none).toArray⟩

/-- Whether `n` lies in one of the ranges with index in `[lo, hi)`, found by bisection. -/
def containsIn (s : RangeSet) (n : Nat) (lo hi : Nat) : Bool :=
  if h : lo < hi then
    let mid := (lo + hi) / 2
    let r := s.ranges.getD mid (0, 0)
    if n < r.1 then containsIn s n lo mid
    else if r.2 < n then containsIn s n (mid + 1) hi
    else true
  else false
termination_by hi - lo
decreasing_by all_goals omega

/-- Whether the code point `n` is in the set. -/
def contains (s : RangeSet) (n : Nat) : Bool :=
  s.containsIn n 0 s.ranges.size

/-- Whether the character `c` is in the set. -/
def mem (s : RangeSet) (c : Char) : Bool :=
  s.contains c.toNat

end RangeSet

end CommandEngine.Text
