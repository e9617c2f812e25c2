/-
The store: what the cells hold, as it was written.

A cell holds a text that is not empty, or nothing: writing the empty text into a
cell clears it, and the type keeps it so. The store is a sorted map that forgets
how it was built, so two stores are equal exactly when every cell holds the same
text in both.

For keeping, a store becomes a snapshot, which names cells by their canonical
texts. Reading a snapshot back is more lenient than writing one: an address may
be spelt in any of its ways, and an entry whose key is no address is left out
and reported.
-/
import FormulaSheet.Address

set_option autoImplicit false

namespace FormulaSheet

/-- Texts of cells by texts of addresses, in the order of the latter. -/
abbrev Snapshot := Std.ExtTreeMap String String

/-- The texts of the cells that hold one. -/
structure Store where
  cells : Std.ExtTreeMap Address String
  /-- No cell holds the empty text. -/
  ne_empty : ∀ (a : Address) (raw : String), cells[a]? = some raw → raw ≠ ""

namespace Store

/-- The store in which no cell holds anything. -/
def empty : Store where
  cells := ∅
  ne_empty := by simp

instance : Inhabited Store := ⟨empty⟩

/-- What a cell holds. -/
def get? (s : Store) (a : Address) : Option String :=
  s.cells[a]?

def contains (s : Store) (a : Address) : Bool :=
  s.cells.contains a

def size (s : Store) : Nat :=
  s.cells.size

def erase (s : Store) (a : Address) : Store where
  cells := s.cells.erase a
  ne_empty b raw h := by
    rw [Std.ExtTreeMap.getElem?_erase] at h
    split at h
    · simp at h
    · exact s.ne_empty b raw h

/-- Writes a text into a cell; the empty text clears it. -/
def set (s : Store) (a : Address) (raw : String) : Store :=
  if hraw : raw = "" then s.erase a
  else {
    cells := s.cells.insert a raw
    ne_empty := fun b other h => by
      rw [Std.ExtTreeMap.getElem?_insert] at h
      split at h
      · simp only [Option.some.injEq] at h
        exact h ▸ hraw
      · exact s.ne_empty b other h }

/-- The cells that hold something, row by row. -/
def addresses (s : Store) : List Address :=
  s.cells.keys

/-- The cells that hold something and what they hold, row by row. -/
def toList (s : Store) : List (Address × String) :=
  s.cells.toList

/-! ## Snapshots -/

def snapshot (s : Store) : Snapshot :=
  Std.ExtTreeMap.ofList (s.toList.map fun (a, raw) => (a.text, raw))

/-- Writes one entry; an entry whose key is no address is put into the list instead. -/
def addEntry (loaded : Store × List String) (entry : String × String) : Store × List String :=
  match Address.ofText? entry.1 with
  | some a => (loaded.1.set a entry.2, loaded.2)
  | none => (loaded.1, entry.1 :: loaded.2)

/-- The store that entries make when they are written one after another, and the keys that are no
addresses, in order. -/
def ofEntries (entries : List (String × String)) : Store × List String :=
  let loaded := entries.foldl addEntry (empty, [])
  (loaded.1, loaded.2.reverse)

/-! ## What each operation does to what the cells hold -/

@[ext] theorem ext {s t : Store} (h : ∀ a, s.get? a = t.get? a) : s = t := by
  cases s
  cases t
  simp only [mk.injEq]
  exact Std.ExtTreeMap.ext_getElem? fun a => h a

@[simp] theorem get?_empty (a : Address) : empty.get? a = none := by
  simp [empty, get?]

theorem get?_erase (s : Store) (a b : Address) :
    (s.erase a).get? b = if a = b then none else s.get? b := by
  simp [erase, get?, Std.ExtTreeMap.getElem?_erase]

theorem get?_set (s : Store) (a b : Address) (raw : String) :
    (s.set a raw).get? b = if a = b then (if raw = "" then none else some raw) else s.get? b := by
  by_cases h : raw = ""
  · simp [set, h, get?_erase]
  · simp [set, h, get?, Std.ExtTreeMap.getElem?_insert]

theorem get?_ne_some_empty (s : Store) (a : Address) : s.get? a ≠ some "" :=
  fun h => s.ne_empty a "" h rfl

theorem contains_eq_isSome (s : Store) (a : Address) : s.contains a = (s.get? a).isSome := by
  simp [contains, get?]

theorem mem_addresses {s : Store} {a : Address} : a ∈ s.addresses ↔ (s.get? a).isSome := by
  simp [addresses, get?]

end Store

end FormulaSheet
