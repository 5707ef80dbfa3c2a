import CommandEngine.Text.Quoted

/-!
# The context store

Every command of a run reads and writes one shared store of text values under text keys. The store keeps its entries
sorted by key, so its keys come out in code-point order, which is the order the engine reports them in.

Main statements: `get?_insert` and `get?_erase` say what a write and a removal do to a lookup.
-/

namespace CommandEngine

/-- Text values under text keys, kept sorted by key with one entry per key. -/
structure Store where
  entries : List (String × String) := []
  deriving Repr, Inhabited, DecidableEq

namespace Store

/-- The entries of `xs` with `(k, v)` in place of the entry for `k`, or added in key order. -/
def insertSorted (k v : String) : List (String × String) → List (String × String)
  | [] => [(k, v)]
  | (k', v') :: rest =>
    if k < k' then (k, v) :: (k', v') :: rest
    else if k = k' then (k, v) :: rest
    else (k', v') :: insertSorted k v rest

/-- The entries of `xs` without an entry for `k`. -/
def eraseKey (k : String) (xs : List (String × String)) : List (String × String) :=
  xs.filter (·.1 ≠ k)

/-- A lookup after `insertSorted` finds the inserted entry under its key, and what it found before under any other. -/
theorem find?_insertSorted (k v k' : String) (xs : List (String × String)) :
    (insertSorted k v xs).find? (·.1 = k') = if k = k' then some (k, v) else xs.find? (·.1 = k') := by
  induction xs with
  | nil => by_cases h : k = k' <;> simp [insertSorted, h]
  | cons p rest ih =>
    obtain ⟨a, b⟩ := p
    by_cases h1 : k < a
    · rw [insertSorted, if_pos h1]
      by_cases h3 : k = k' <;> simp [h3]
    · by_cases h2 : k = a
      · subst h2
        rw [insertSorted, if_neg h1, if_pos rfl]
        by_cases h3 : k = k' <;> simp [h3]
      · rw [insertSorted, if_neg h1, if_neg h2, List.find?_cons, ih, List.find?_cons]
        by_cases ha : a = k'
        · subst ha
          simp [h2]
        · simp [ha]

/-- A lookup after `eraseKey k` finds nothing under `k`, and what it found before under any other key. -/
theorem find?_eraseKey (k k' : String) (xs : List (String × String)) :
    (eraseKey k xs).find? (·.1 = k') = if k = k' then none else xs.find? (·.1 = k') := by
  induction xs with
  | nil => simp [eraseKey]
  | cons p rest ih =>
    obtain ⟨a, b⟩ := p
    unfold eraseKey at ih ⊢
    by_cases ha : a = k
    · subst ha
      rw [List.filter_cons_of_neg (by simp), ih]
      by_cases h3 : a = k' <;> simp [h3]
    · rw [List.filter_cons_of_pos (by simpa using ha), List.find?_cons, ih, List.find?_cons]
      by_cases h3 : a = k'
      · subst h3
        simp [Ne.symm ha]
      · simp [h3]

/-- The store holding the given pairs, a later pair for a key replacing an earlier one. -/
def ofList (pairs : List (String × String)) : Store :=
  ⟨pairs.foldl (fun acc (k, v) => insertSorted k v acc) []⟩

/-- The value under `k`, if any. -/
def get? (s : Store) (k : String) : Option String :=
  (s.entries.find? (·.1 = k)).map (·.2)

/-- The store with `v` under `k`. -/
def insert (s : Store) (k v : String) : Store :=
  ⟨insertSorted k v s.entries⟩

/-- The store without a value under `k`. -/
def erase (s : Store) (k : String) : Store :=
  ⟨eraseKey k s.entries⟩

/-- A write is seen by a later lookup of its key and by no other. -/
@[simp] theorem get?_insert (s : Store) (k v k' : String) :
    (s.insert k v).get? k' = if k = k' then some v else s.get? k' := by
  unfold get? insert
  rw [find?_insertSorted]
  by_cases h : k = k' <;> simp [h]

/-- After a removal a lookup of the key finds nothing, and a lookup of any other key what it found before. -/
@[simp] theorem get?_erase (s : Store) (k k' : String) :
    (s.erase k).get? k' = if k = k' then none else s.get? k' := by
  unfold get? erase
  rw [find?_eraseKey]
  by_cases h : k = k' <;> simp [h]

/-- Stores `v` under `k` and gives back the value it replaced. -/
def set (s : Store) (k v : String) : Option String × Store :=
  (s.get? k, s.insert k v)

/-- Removes the value under `k` and gives it back. -/
def remove (s : Store) (k : String) : Option String × Store :=
  (s.get? k, s.erase k)

/-- Whether a value is stored under `k`. -/
def contains (s : Store) (k : String) : Bool :=
  (s.get? k).isSome

/-- The keys, in increasing order. -/
def keys (s : Store) : List String :=
  s.entries.map (·.1)

/-- The number of keys. -/
def size (s : Store) : Nat :=
  s.entries.length

/-- Whether the store is empty. -/
def isEmpty (s : Store) : Bool :=
  s.entries.isEmpty

/-- The debug rendering `MapContext { entries: {"k": "v"} }`, entries in key order. -/
def debug (s : Store) : String :=
  "MapContext \x7b entries: \x7b" ++
    ", ".intercalate (s.entries.map fun (k, v) => Text.quote k ++ ": " ++ Text.quote v) ++ "\x7d \x7d"

end Store

end CommandEngine
