/-
Working out a formula whose reads are not known yet.

The formulas to be finished stand on a stack of frames, the one that everything
below waits for on top. As long as the top frame has an unread cell that is
pending, that cell gets a frame of its own. When none is left, every cell that
the formula reads is settled, so its value follows from looking at them, and the
frame is closed. A chain of references may thus be as long as the sheet is
large: it makes the stack deep and nothing else.

Each step either enters a pending cell, which is then pending no more, or closes
a frame. So twice the number of pending cells plus the number of frames goes
down all the time, and the walk ends.
-/
import FormulaSheet.Evaluation.Pass

set_option autoImplicit false

namespace FormulaSheet

/-- A formula that has been begun. -/
structure Frame where
  /-- The cell that holds it. -/
  cell : Address
  formula : Formula
  /-- The cells it reads that have not been looked at. -/
  unread : List Address

namespace Frame

/-- A frame for a formula of which nothing has been read. -/
def start (s : Store) (a : Address) (f : Formula) : Frame :=
  ⟨a, f, f.reads s⟩

/-- The first unread cell that is pending: its address, its formula, and what is unread after
it. -/
def firstPending? (s : Store) (p : Pass) :
    List Address → Option (Address × Formula × List Address)
  | [] => none
  | a :: rest => match p.pending? s a with
    | some f => some (a, f, rest)
    | none => firstPending? s p rest

end Frame

namespace Pass

/-- Closes a frame all of whose reads are settled: notes the literals among them and finishes the
cell. -/
def close (s : Store) (p : Pass) (frame : Frame) : Pass :=
  let read := p.consult s (noteLiteral s) frame.formula.stopsAtCircular (frame.formula.reads s)
  read.leave frame.cell (frame.formula.value s (read.look s))

/-! ## The measure -/

def pendingCount (s : Store) (p : Pass) : Nat :=
  s.addresses.countP fun a => (p.pending? s a).isSome

/-- A count goes down when one thing less is counted. -/
theorem countP_lt_countP {α : Type} {f g : α → Bool} {xs : List α}
    (h : ∀ x, f x = true → g x = true) {y : α} (hy : y ∈ xs) (hf : f y = false)
    (hg : g y = true) : xs.countP f < xs.countP g := by
  induction xs with
  | nil => simp at hy
  | cons x xs ih =>
    have hle : xs.countP f ≤ xs.countP g := List.countP_mono_left fun x _ => h x
    rw [List.countP_cons, List.countP_cons]
    rcases List.mem_cons.1 hy with rfl | hy
    · simp only [hf, hg]
      simp only [Bool.false_eq_true, if_false, if_true]
      omega
    · have hlt := ih hy
      have hstep : (if f x = true then 1 else 0) ≤ (if g x = true then 1 else 0) := by
        split
        · next hfx => simp [h x hfx]
        · exact Nat.zero_le _
      omega

theorem firstPending?_pending {s : Store} {p : Pass} {cells rest : List Address} {a : Address}
    {f : Formula} (h : Frame.firstPending? s p cells = some (a, f, rest)) :
    p.pending? s a = some f := by
  induction cells with
  | nil => simp [Frame.firstPending?] at h
  | cons b cells ih =>
    rw [Frame.firstPending?] at h
    cases hb : p.pending? s b with
    | none =>
      rw [hb] at h
      exact ih h
    | some g =>
      rw [hb] at h
      simp only [Option.some.injEq, Prod.mk.injEq] at h
      obtain ⟨rfl, rfl, _⟩ := h
      exact hb

theorem pending?_isSome_iff {s : Store} {p : Pass} {a : Address} :
    (p.pending? s a).isSome = true ↔ p.memo.contains a = false ∧ p.path.contains a = false
      ∧ ((s.get? a).bind Formula.ofRaw?).isSome = true := by
  unfold pending?
  cases p.memo.contains a <;> cases p.path.contains a <;> simp

/-- A cell is settled when it is in the memo, or on the path, or holds no formula. -/
theorem pending?_eq_none_iff {s : Store} {p : Pass} {a : Address} :
    p.pending? s a = none ↔ p.memo.contains a = true ∨ p.path.contains a = true
      ∨ (s.get? a).bind Formula.ofRaw? = none := by
  unfold pending?
  cases p.memo.contains a <;> cases p.path.contains a <;> simp

theorem mem_addresses_of_pending {s : Store} {p : Pass} {a : Address}
    (h : (p.pending? s a).isSome = true) : a ∈ s.addresses := by
  rw [Store.mem_addresses]
  cases hs : s.get? a with
  | some raw => rfl
  | none => simp [pending?_isSome_iff, hs] at h

/-! ## What is settled stays so -/

theorem settled_enter {s : Store} {p : Pass} {b : Address} (a : Address)
    (h : p.pending? s b = none) : (p.enter a).pending? s b = none := by
  rw [pending?_eq_none_iff] at h ⊢
  rcases h with hmemo | hpath | hcell
  · exact .inl hmemo
  · exact .inr (.inl (by simp [enter, hpath]))
  · exact .inr (.inr hcell)

theorem settled_noteLiteral {s : Store} {p : Pass} {b : Address} (a : Address)
    (h : p.pending? s b = none) : (p.noteLiteral s a).pending? s b = none := by
  rw [pending?_eq_none_iff] at h ⊢
  rcases h with hmemo | hpath | hcell
  · exact .inl (memo_noteLiteral s p a hmemo)
  · exact .inr (.inl (by rw [path_noteLiteral, hpath]))
  · exact .inr (.inr hcell)

/-- The one cell that leaves the path is the one that enters the memo. -/
theorem settled_leave {s : Store} {p : Pass} {b : Address} (a : Address) (v : Value)
    (h : p.pending? s b = none) : (p.leave a v).pending? s b = none := by
  rw [pending?_eq_none_iff] at h ⊢
  rcases h with hmemo | hpath | hcell
  · exact .inl (by simp [leave, hmemo])
  · by_cases hab : compare a b = .eq
    · exact .inl (by simp [leave, hab])
    · exact .inr (.inl (by simp [leave, hab, hpath]))
  · exact .inr (.inr hcell)

theorem settled_close {s : Store} {p : Pass} {b : Address} (frame : Frame)
    (h : p.pending? s b = none) : (p.close s frame).pending? s b = none := by
  unfold close
  apply settled_leave
  exact consult_induction (motive := fun q => q.pending? s b = none)
    (fun q c hq => settled_noteLiteral c hq) _ p h

/-- Entering a pending cell leaves one pending cell less. -/
theorem pendingCount_enter_lt {s : Store} {p : Pass} {a : Address}
    (h : (p.pending? s a).isSome = true) : (p.enter a).pendingCount s < p.pendingCount s := by
  refine countP_lt_countP ?_ (mem_addresses_of_pending h) ?_ h
  · intro b hb
    rw [Option.isSome_iff_ne_none] at hb ⊢
    exact fun hsettled => hb (settled_enter a hsettled)
  · have hsettled : (p.enter a).pending? s a = none := by
      rw [pending?_eq_none_iff]
      exact .inr (.inl (by simp [enter]))
    rw [hsettled]
    rfl

theorem pendingCount_close_le (s : Store) (p : Pass) (frame : Frame) :
    (p.close s frame).pendingCount s ≤ p.pendingCount s := by
  refine List.countP_mono_left fun b _ hb => ?_
  rw [Option.isSome_iff_ne_none] at hb ⊢
  exact fun hsettled => hb (settled_close frame hsettled)

/-! ## The walk -/

/-- Works until no frame is left. -/
def walk (s : Store) (p : Pass) (frames : List Frame) : Pass :=
  match frames with
  | [] => p
  | frame :: rest =>
    match _h : Frame.firstPending? s p frame.unread with
    | some (a, f, unread) =>
      walk s (p.enter a) (Frame.start s a f :: { frame with unread } :: rest)
    | none => walk s (p.close s frame) rest
termination_by 2 * p.pendingCount s + frames.length
decreasing_by
  · -- one pending cell less counts twice, and one frame more counts once
    have := pendingCount_enter_lt (s := s) (p := p) (a := a)
      (by rw [firstPending?_pending _h]; rfl)
    simp only [List.length_cons]
    omega
  · -- a frame less, and nothing has become pending
    have := pendingCount_close_le s p frame
    simp only [List.length_cons]
    omega

end Pass

end FormulaSheet
