/-
What a store holds, whatever was done to it.

Three things can be done with a store: a text is written into a cell, a cell is
cleared, or all cells are replaced by the entries of a snapshot. Beside the store
stands the plain account of the same operations, a function that gives each cell
its text and the empty text to a cell that holds nothing (`texts`). To write is
to change that function at one place, and to load is to take for each cell the
last of the entries that name it, in whatever spelling. The store holds a text
exactly where the function has one that is not empty (`Holds.run`).

A snapshot is loaded back as the store it was taken from, in whatever order its
entries come. For this the cells must have row numbers that can be read, and no
operation stores one that has not: those of a snapshot have been read, and the
others are a condition on the operations.
-/
import FormulaSheet.Proofs.Address.Codec
import FormulaSheet.Store
import Mathlib.Data.List.Induction

set_option autoImplicit false

namespace FormulaSheet.Store

/-! ## Entries that are written one after another -/

section Entries

variable {entries : List (String × String)} {a : Address}

/-- What a cell holds after a text has been written into it. -/
def held? (raw : String) : Option String :=
  if raw = "" then none else some raw

@[simp] theorem held?_eq_some_iff {text raw : String} :
    held? text = some raw ↔ text = raw ∧ raw ≠ "" := by
  unfold held?
  split
  · simp_all
  · grind

/-- The text of the last entry that names a cell, and the empty text if none does. -/
def lastText (entries : List (String × String)) (a : Address) : String :=
  (entries.reverse.find? fun e => Address.ofText? e.1 == some a).elim "" Prod.snd

theorem lastText_append (entries : List (String × String)) (e : String × String) (a : Address) :
    lastText (entries ++ [e]) a
      = if Address.ofText? e.1 = some a then e.2 else lastText entries a := by
  rw [lastText, List.reverse_concat, List.find?_cons]
  by_cases h : Address.ofText? e.1 = some a
  · simp [h]
  · have hne : (Address.ofText? e.1 == some a) = false := beq_eq_false_iff_ne.mpr h
    rw [hne, if_neg h]
    rfl

theorem ofEntries_append (entries : List (String × String)) (e : String × String) :
    ofEntries (entries ++ [e]) = match Address.ofText? e.1 with
      | some a => ((ofEntries entries).1.set a e.2, (ofEntries entries).2)
      | none => ((ofEntries entries).1, (ofEntries entries).2 ++ [e.1]) := by
  unfold ofEntries
  rw [List.foldl_append, List.foldl_cons, List.foldl_nil]
  cases h : Address.ofText? e.1 with
  | some a => simp only [addEntry, h]
  | none => simp only [addEntry, h, List.reverse_cons]

/-- Of several entries for one cell the last counts, and an empty one clears the cell. -/
theorem get?_ofEntries (entries : List (String × String)) (a : Address) :
    (ofEntries entries).1.get? a = held? (lastText entries a) := by
  induction entries using List.reverseRecOn with
  | nil => exact get?_empty a
  | append_singleton entries e ih =>
    rw [ofEntries_append, lastText_append]
    cases h : Address.ofText? e.1 with
    | none =>
      rw [if_neg (by simp)]
      exact ih
    | some b =>
      by_cases hb : b = a
      · subst hb
        simp only [get?_set, if_true, held?]
      · have hne : some b ≠ some a := fun heq => hb (Option.some.inj heq)
        simp only [get?_set, if_neg hb, if_neg hne, ih]

/-- Whether an entry has an address for its key. -/
def isAddressed (e : String × String) : Bool :=
  (Address.ofText? e.1).isSome

/-- The keys that are no addresses are left out, one by one. -/
theorem skipped_ofEntries (entries : List (String × String)) :
    (ofEntries entries).2 = (entries.filter fun e => !isAddressed e).map Prod.fst := by
  induction entries using List.reverseRecOn with
  | nil => rfl
  | append_singleton entries e ih =>
    rw [ofEntries_append, List.filter_append, List.map_append, ← ih]
    cases h : Address.ofText? e.1 with
    | some b => simp [isAddressed, h]
    | none => simp [isAddressed, h]

theorem length_skipped_ofEntries (entries : List (String × String)) :
    (ofEntries entries).2.length = entries.countP fun e => !isAddressed e := by
  rw [skipped_ofEntries, List.length_map, List.countP_eq_length_filter]

/-- And what is left out leaves no trace. -/
theorem ofEntries_filter (entries : List (String × String)) :
    (ofEntries (entries.filter isAddressed)).1 = (ofEntries entries).1 := by
  ext1 a
  have hnamed : ∀ e : String × String,
      decide (isAddressed e = true ∧ (Address.ofText? e.1 == some a) = true)
        = (Address.ofText? e.1 == some a) := by
    intro e
    cases h : Address.ofText? e.1 with
    | none => simp [isAddressed, h]
    | some b => by_cases hb : b = a <;> simp [isAddressed, h, hb]
  have hlast : lastText (entries.filter isAddressed) a = lastText entries a := by
    unfold lastText
    rw [← List.filter_reverse, List.find?_filter, funext hnamed]
  rw [get?_ofEntries, get?_ofEntries, hlast]

/-- Entries among which those that name a cell all have the same text leave it in the cell. -/
theorem get?_ofEntries_of_mem {e : String × String} (he : e ∈ entries)
    (hnames : Address.ofText? e.1 = some a) (hne : e.2 ≠ "")
    (hall : ∀ e' ∈ entries, Address.ofText? e'.1 = some a → e'.2 = e.2) :
    (ofEntries entries).1.get? a = some e.2 := by
  rw [get?_ofEntries, held?_eq_some_iff, lastText]
  refine ⟨?_, hne⟩
  cases hfind : entries.reverse.find? fun e => Address.ofText? e.1 == some a with
  | none =>
    rw [List.find?_eq_none] at hfind
    exact absurd (beq_iff_eq.mpr hnames) (hfind e (List.mem_reverse.mpr he))
  | some e' =>
    have hmem : e' ∈ entries := List.mem_reverse.mp (List.mem_of_find?_eq_some hfind)
    exact hall e' hmem (by simpa using List.find?_some hfind)

theorem get?_ofEntries_of_not_mem (h : ∀ e ∈ entries, Address.ofText? e.1 ≠ some a) :
    (ofEntries entries).1.get? a = none := by
  have hfind : (entries.reverse.find? fun e => Address.ofText? e.1 == some a) = none := by
    rw [List.find?_eq_none]
    intro e he
    rw [beq_iff_eq]
    exact h e (List.mem_reverse.mp he)
  rw [get?_ofEntries, lastText, hfind, Option.elim_none, held?, if_pos rfl]

end Entries

/-! ## Snapshots -/

section Snapshots

variable {s : Store}

theorem mem_toList {e : Address × String} : e ∈ s.toList ↔ s.get? e.1 = some e.2 :=
  Std.ExtTreeMap.mem_toList_iff_getElem?_eq_some

/-- The entries of a snapshot. -/
def entries (s : Store) : List (String × String) :=
  s.toList.map fun (a, raw) => (a.text, raw)

theorem mem_entries {key raw : String} :
    (key, raw) ∈ s.entries ↔ ∃ a, key = a.text ∧ s.get? a = some raw := by
  unfold entries
  rw [List.mem_map]
  constructor
  · rintro ⟨⟨a, raw'⟩, hmem, heq⟩
    obtain ⟨rfl, rfl⟩ := Prod.mk.inj heq
    exact ⟨a, rfl, mem_toList.mp hmem⟩
  · rintro ⟨a, rfl, hraw⟩
    exact ⟨(a, raw), mem_toList.mpr hraw, rfl⟩

/-- No two cells have one key, so no entry is lost on the way to the snapshot. -/
theorem distinct_entries (s : Store) :
    s.entries.Pairwise fun e e' => ¬ compare e.1 e'.1 = .eq := by
  unfold entries
  rw [List.pairwise_map]
  refine Std.ExtTreeMap.distinct_keys_toList.imp ?_
  intro e e' hdistinct hkeys
  have htext : e.1.text = e'.1.text := Std.LawfulEqCmp.eq_of_compare hkeys
  rw [Address.eq_of_text_eq htext] at hdistinct
  exact hdistinct Std.ReflCmp.compare_self

theorem size_snapshot (s : Store) : s.snapshot.size = s.size := by
  calc s.snapshot.size = s.entries.length := Std.ExtTreeMap.size_ofList (distinct_entries s)
    _ = s.toList.length := List.length_map _
    _ = s.size := Std.ExtTreeMap.length_toList

/-- The entries of a snapshot are the cells of the store, under their canonical texts. -/
theorem getElem?_snapshot {key raw : String} :
    s.snapshot[key]? = some raw ↔ ∃ a, key = a.text ∧ s.get? a = some raw := by
  rw [← mem_entries]
  constructor
  · intro h
    by_cases hkey : key ∈ s.entries.map Prod.fst
    · obtain ⟨⟨key', raw'⟩, hmem, rfl⟩ := List.mem_map.mp hkey
      have hraw : s.snapshot[key']? = some raw' :=
        Std.ExtTreeMap.getElem?_ofList_of_mem Std.ReflCmp.compare_self (distinct_entries s) hmem
      rw [hraw, Option.some.injEq] at h
      exact h ▸ hmem
    · have hnone : s.snapshot[key]? = none :=
        Std.ExtTreeMap.getElem?_ofList_of_contains_eq_false
          (Bool.eq_false_iff.mpr fun hmem => hkey (List.contains_iff_mem.mp hmem))
      rw [hnone] at h
      cases h
  · exact Std.ExtTreeMap.getElem?_ofList_of_mem Std.ReflCmp.compare_self (distinct_entries s)

theorem mem_toList_snapshot {e : String × String} :
    e ∈ s.snapshot.toList ↔ ∃ a, e.1 = a.text ∧ s.get? a = some e.2 := by
  rw [← getElem?_snapshot]
  exact Std.ExtTreeMap.mem_toList_iff_getElem?_eq_some

/-- Whether the cells of a store have row numbers that can be read. -/
def Readable (s : Store) : Prop :=
  ∀ a raw, s.get? a = some raw → a.Readable

theorem readable_empty : empty.Readable := by
  intro a raw hraw
  rw [get?_empty] at hraw
  cases hraw

theorem Readable.set {a : Address} (hs : s.Readable) (ha : a.Readable) (raw : String) :
    (s.set a raw).Readable := by
  intro b raw' hraw
  by_cases hb : a = b
  · exact hb ▸ ha
  · rw [get?_set, if_neg hb] at hraw
    exact hs b raw' hraw

theorem Readable.erase (hs : s.Readable) (a : Address) : (s.erase a).Readable := by
  intro b raw hraw
  by_cases hb : a = b
  · rw [get?_erase, if_pos hb] at hraw
    cases hraw
  · rw [get?_erase, if_neg hb] at hraw
    exact hs b raw hraw

/-- A cell that an entry has filled was read from the key. -/
theorem readable_ofEntries (entries : List (String × String)) : (ofEntries entries).1.Readable := by
  intro a raw hraw
  by_contra hunreadable
  have hnone : (ofEntries entries).1.get? a = none := by
    apply get?_ofEntries_of_not_mem
    intro e _ hkey
    exact hunreadable (Address.readable_iff.mpr ⟨e.1, hkey⟩)
  rw [hnone] at hraw
  cases hraw

/-- **A snapshot is loaded as the store it was taken from**, whatever the order of its entries. -/
theorem ofEntries_snapshot (hs : s.Readable) {entries : List (String × String)}
    (hperm : entries.Perm s.snapshot.toList) : ofEntries entries = (s, []) := by
  have hread : ∀ e ∈ entries, ∃ a, Address.ofText? e.1 = some a ∧ s.get? a = some e.2 := by
    intro e he
    obtain ⟨a, hkey, hraw⟩ := mem_toList_snapshot.mp (hperm.mem_iff.mp he)
    exact ⟨a, by rw [hkey, Address.ofText?_text (hs a _ hraw)], hraw⟩
  have hskipped : (ofEntries entries).2 = [] := by
    rw [skipped_ofEntries, List.map_eq_nil_iff, List.filter_eq_nil_iff]
    intro e he
    obtain ⟨a, hkey, -⟩ := hread e he
    simp [isAddressed, hkey]
  have hcells : (ofEntries entries).1 = s := by
    ext1 a
    cases hraw : s.get? a with
    | none =>
      apply get?_ofEntries_of_not_mem
      intro e he hkey
      obtain ⟨b, hkey', hraw'⟩ := hread e he
      obtain rfl : a = b := Option.some.inj (hkey.symm.trans hkey')
      rw [hraw] at hraw'
      cases hraw'
    | some raw =>
      have hmem : (a.text, raw) ∈ entries :=
        hperm.mem_iff.mpr (mem_toList_snapshot.mpr ⟨a, rfl, hraw⟩)
      refine get?_ofEntries_of_mem hmem (Address.ofText?_text (hs a raw hraw)) ?_ ?_
      · rintro rfl
        exact s.get?_ne_some_empty a hraw
      · intro e he hkey
        obtain ⟨b, hkey', hraw'⟩ := hread e he
        obtain rfl : a = b := Option.some.inj (hkey.symm.trans hkey')
        exact Option.some.inj (hraw'.symm.trans hraw)
  exact Prod.ext hcells hskipped

end Snapshots

/-! ## Operations -/

/-- What can be done with a store. -/
inductive Operation where
  | set (a : Address) (raw : String)
  | remove (a : Address)
  /-- All cells are replaced by the entries of a snapshot, in the order given. -/
  | load (entries : List (String × String))

/-- What comes of an operation beside the store. -/
inductive Answer where
  /-- What the cell held before. -/
  | before (raw? : Option String)
  /-- How many entries were left out. -/
  | skipped (count : Nat)
deriving DecidableEq

/-- The store after an operation, and the answer. -/
def perform (s : Store) : Operation → Store × Answer
  | .set a raw => (s.set a raw, .before (s.get? a))
  | .remove a => (s.erase a, .before (s.get? a))
  | .load entries => ((ofEntries entries).1, .skipped (ofEntries entries).2.length)

/-- The store after some operations on an empty one. -/
def after (ops : List Operation) : Store :=
  ops.foldl (fun s op => (s.perform op).1) empty

namespace Operation

/-- An operation on a cell whose row number can be read. What a snapshot names is read. -/
def Readable : Operation → Prop
  | set a _ => a.Readable
  | remove a => a.Readable
  | load _ => True

/-- The texts of all cells after an operation, from those before. -/
def rewrite (texts : Address → String) : Operation → Address → String
  | set a raw, b => if a = b then raw else texts b
  | remove a, b => if a = b then "" else texts b
  | load entries, b => lastText entries b

end Operation

/-- The texts of all cells after some operations. -/
def texts (ops : List Operation) : Address → String :=
  ops.foldl Operation.rewrite fun _ => ""

section Runs

variable {s : Store} {texts : Address → String} {op : Operation}

/-- A store that holds the given texts, where they are not empty. -/
def Holds (s : Store) (texts : Address → String) : Prop :=
  ∀ a, s.get? a = held? (texts a)

/-- One operation keeps the store and the account of it together. -/
theorem Holds.perform (h : s.Holds texts) (op : Operation) :
    (s.perform op).1.Holds (op.rewrite texts) := by
  intro b
  cases op with
  | set a raw =>
    by_cases hb : a = b
    · simp [Store.perform, Operation.rewrite, get?_set, hb, held?]
    · simp [Store.perform, Operation.rewrite, get?_set, hb, h b]
  | remove a =>
    by_cases hb : a = b
    · simp [Store.perform, Operation.rewrite, get?_erase, hb, held?]
    · simp [Store.perform, Operation.rewrite, get?_erase, hb, h b]
  | load entries => exact get?_ofEntries entries b

theorem Holds.run (h : s.Holds texts) (ops : List Operation) :
    (ops.foldl (fun s op => (s.perform op).1) s).Holds (ops.foldl Operation.rewrite texts) := by
  induction ops generalizing s texts with
  | nil => exact h
  | cons op ops ih => exact ih (h.perform op)

/-- One operation on a readable cell stores no other. -/
theorem Readable.perform (hs : s.Readable) (hop : op.Readable) : (s.perform op).1.Readable := by
  cases op with
  | set a raw => exact hs.set hop raw
  | remove a => exact hs.erase a
  | load entries => exact readable_ofEntries entries

theorem Readable.run (hs : s.Readable) {ops : List Operation} (hops : ∀ op ∈ ops, op.Readable) :
    (ops.foldl (fun s op => (s.perform op).1) s).Readable := by
  induction ops generalizing s with
  | nil => exact hs
  | cons op ops ih =>
    rw [List.forall_mem_cons] at hops
    exact ih (hs.perform hops.1) hops.2

end Runs

/-- **A store and its snapshot.** After any operations on readable cells a cell holds a text exactly
if the text that was left in it is not empty. The snapshot has as many entries as there are such
cells, and each is a cell under its canonical text. Loaded in any order and into whatever store, the
entries of the snapshot give the store again, and none is left out. And whatever is loaded, the
entries that are left out are counted, they are those whose keys are no addresses, and they make no
difference to the cells. -/
theorem contents_and_snapshot (ops : List Operation) (hops : ∀ op ∈ ops, op.Readable) :
    (∀ a raw, (after ops).get? a = some raw ↔ texts ops a = raw ∧ raw ≠ "") ∧
    (after ops).snapshot.size = (after ops).size ∧
    (∀ key raw, (after ops).snapshot[key]? = some raw ↔
      ∃ a, key = a.text ∧ (after ops).get? a = some raw) ∧
    (∀ (t : Store) (entries : List (String × String)),
      entries.Perm (after ops).snapshot.toList →
        t.perform (.load entries) = (after ops, .skipped 0)) ∧
    ∀ (t : Store) (entries : List (String × String)),
      (t.perform (.load entries)).2 = .skipped (entries.countP fun e => !isAddressed e) ∧
      (t.perform (.load (entries.filter isAddressed))).1 = (t.perform (.load entries)).1 := by
  have hholds : (after ops).Holds (texts ops) := Holds.run (fun a => get?_empty a) ops
  have hreadable : (after ops).Readable := readable_empty.run hops
  refine ⟨fun a raw => ?_, size_snapshot _, fun _ _ => getElem?_snapshot, ?_, ?_⟩
  · rw [hholds a, held?_eq_some_iff]
  · intro t entries hperm
    rw [perform, ofEntries_snapshot hreadable hperm]
    rfl
  · intro t entries
    exact ⟨congrArg Answer.skipped (length_skipped_ofEntries entries), ofEntries_filter entries⟩

/-- One cell in three spellings, the second of which clears it, beside a key that is no address; and
a store that held something else. -/
theorem contents_and_snapshot_spellings :
    let ops : List Operation :=
      [.set ⟨7, 3⟩ "old",
        .load [("a1", "5"), ("A01", ""), ("AA1", "x"), ("A1", "6"), ("b2", "=A1")],
        .set ⟨1, 1⟩ ""]
    (∀ op ∈ ops, op.Readable) ∧ (after ops).get? ⟨0, 0⟩ = some "6" ∧
      (after ops).get? ⟨1, 1⟩ = none ∧
      (after [.set ⟨4, 4⟩ "z"]).perform (.load (after ops).snapshot.toList.reverse)
        = (after ops, .skipped 0) := by
  intro ops
  have hops : ∀ op ∈ ops, op.Readable := by
    simp [ops, Operation.Readable, Address.Readable, Address.rowLimit]
  obtain ⟨hget, -, -, hload, -⟩ := contents_and_snapshot ops hops
  have hfirst : texts ops ⟨0, 0⟩ = "6" := by decide
  have hcleared : texts ops ⟨1, 1⟩ = "" := by decide
  refine ⟨hops, (hget _ _).mpr ⟨hfirst, by decide⟩, ?_, hload _ _ (List.reverse_perm _)⟩
  rw [Option.eq_none_iff_forall_ne_some]
  intro raw hraw
  obtain ⟨htext, hne⟩ := (hget _ _).mp hraw
  exact hne (htext.symm.trans hcleared)

end FormulaSheet.Store
