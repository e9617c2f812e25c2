/-
The walk gives every cell its meaning.

A walk begins in some pass `p₀` and changes it all the time: cells enter the
path and leave it for the memo. The meaning of the cells is that of `p₀`, and
the question is why a value that is worked out with half of the sheet on the
path is right for good. There are two answers, one for each kind of cell that a
frame looks at when it is closed.

A cell that is on the path and was not on it in `p₀` belongs to a frame further
down, and each frame waits for the one above it. So the cell leads to the frame
that looks at it, which closes a circle: the cell is circular not only now, but
in the graph of `p₀`. Any other settled cell has its meaning by what was proved
when it entered the memo. Hence whatever enters the memo is right, also inside a
circle (`Underway.close`), and from one step the whole walk follows by induction
(`Underway.walk`).
-/
import FormulaSheet.Evaluation.Basic
import FormulaSheet.Proofs.Evaluation.Meaning

set_option autoImplicit false

namespace FormulaSheet.Pass

open Relation (ReflTransGen TransGen)

variable {s : Store} {p₀ p : Pass} {a b : Address} {f : Formula} {v : Value}
  {begun : List Address} {frame : Frame} {rest : List Frame}

/-! ## Memos and paths that go on from a pass -/

/-- A memo that goes on from a pass: it holds what the cells mean there, and forgets nothing. -/
structure Faithful (s : Store) (p₀ : Pass) (memo : Memo) : Prop where
  means : ∀ (a : Address) (v : Value), memo[a]? = some v → p₀.Means s a v
  kept : ∀ a, p₀.memo.contains a = true → memo.contains a = true

/-- A path that goes on from a pass: it holds the cells begun since then besides those of the
pass. -/
def Extends (p₀ : Pass) (path : Path) (begun : List Address) : Prop :=
  ∀ a, path.contains a = true ↔ p₀.path.contains a = true ∨ a ∈ begun

/-- All the cells begun wait for a cell. -/
def Await (s : Store) (p₀ : Pass) (begun : List Address) (b : Address) : Prop :=
  ∀ c ∈ begun, TransGen (p₀.Reads s) c b

/-- The memo of a pass says what it means. -/
theorem Faithful.refl (s : Store) (p : Pass) : p.Faithful s p.memo where
  means a v h := by
    have hsettled : p.pending? s a = none := by
      rw [pending?_eq_none_iff, Std.ExtTreeMap.contains_eq_isSome_getElem?, h]
      exact .inl rfl
    have hlook : p.look s a = v := by simp only [look, h]
    exact hlook ▸ .settled hsettled
  kept _ h := h

theorem Extends.refl (p : Pass) : p.Extends p.path [] := by
  intro a
  simp

/-- What is not on a later path was not on the first one. -/
theorem Extends.off_path (hp : p₀.Extends p.path begun) (h : ¬ p.path.contains a = true) :
    ¬ p₀.path.contains a = true :=
  fun hpath₀ => h ((hp a).mpr (.inl hpath₀))

theorem Extends.enter (hp : p₀.Extends p.path begun) (a : Address) :
    p₀.Extends (p.enter a).path (a :: begun) := by
  intro b
  simp only [Pass.enter, Std.ExtTreeSet.contains_insert, Bool.or_eq_true, beq_iff_eq,
    Std.LawfulEqOrd.compare_eq_iff_eq, hp b, List.mem_cons]
  rw [or_left_comm, eq_comm (a := a)]

theorem Await.nil : p₀.Await s [] b := by
  intro c hc
  cases hc

/-- The cells that wait for a cell wait for what it reads, and so does the cell. -/
theorem Await.cons (h : p₀.Await s begun a) (hab : p₀.Reads s a b) :
    p₀.Await s (a :: begun) b := by
  intro c hc
  rcases List.mem_cons.mp hc with rfl | hc
  · exact .single hab
  · exact .tail (h c hc) hab

theorem Faithful.insert {memo : Memo} (hm : p₀.Faithful s memo) (hv : p₀.Means s a v) :
    p₀.Faithful s (memo.insert a v) where
  means b w h := by
    rw [Std.ExtTreeMap.getElem?_insert] at h
    split at h
    · next hab =>
      rw [Std.LawfulEqOrd.compare_eq_iff_eq] at hab
      rw [Option.some.injEq] at h
      rw [← hab, ← h]
      exact hv
    · exact hm.means b w h
  kept b h := by
    rw [Std.ExtTreeMap.contains_insert, hm.kept b h, Bool.or_true]

/-- What the memo of a later pass lacks, the first one lacked. -/
theorem Faithful.not_known (hm : p₀.Faithful s p.memo) (h : p.memo[a]? = none) :
    p₀.memo[a]? = none := by
  have hnone : p.memo.contains a = false := by
    rw [Std.ExtTreeMap.contains_eq_isSome_getElem?, h]
    rfl
  cases h₀ : p₀.memo[a]? with
  | none => rfl
  | some v =>
    have hsome := hm.kept a (by rw [Std.ExtTreeMap.contains_eq_isSome_getElem?, h₀]; rfl)
    rw [hnone] at hsome
    cases hsome

/-- A pending cell is not on the path. -/
theorem off_path_of_pending (h : p.pending? s a = some f) : ¬ p.path.contains a = true := by
  intro hpath
  have hsettled : p.pending? s a = none := pending?_eq_none_iff.mpr (.inr (.inl hpath))
  rw [h] at hsettled
  cases hsettled

/-- Whatever is pending later was pending at first. -/
theorem pending?_eq_of_later (hm : p₀.Faithful s p.memo) (hp : p₀.Extends p.path begun)
    (h : p.pending? s a = some f) : p₀.pending? s a = some f := by
  unfold pending? at h ⊢
  split at h
  · cases h
  · next hknown =>
    rw [Bool.or_eq_true, not_or] at hknown
    have hmemo : ¬ p₀.memo.contains a = true := fun h₀ => hknown.1 (hm.kept a h₀)
    have hpath : ¬ p₀.path.contains a = true := hp.off_path hknown.2
    rw [if_neg (by rw [Bool.or_eq_true, not_or]; exact ⟨hmemo, hpath⟩)]
    exact h

/-! ## Looking at a settled cell -/

/-- A settled cell looks like what it means, provided that all cells begun wait for it. -/
theorem means_look (hm : p₀.Faithful s p.memo) (hp : p₀.Extends p.path begun)
    (hb : p₀.Await s begun b) (hsettled : p.pending? s b = none) : p₀.Means s b (p.look s b) := by
  unfold look
  cases hmemo : p.memo[b]? with
  | some v => exact hm.means b v hmemo
  | none =>
    have hmemo₀ := hm.not_known hmemo
    by_cases hpath : p.path.contains b = true
    · rw [if_pos hpath]
      rcases (hp b).mp hpath with hpath₀ | hbegun
      · have hsettled₀ : p₀.pending? s b = none := pending?_eq_none_iff.mpr (.inr (.inl hpath₀))
        have hlook : p₀.look s b = .error .circular := by
          simp only [look, hmemo₀, hpath₀, if_true]
        exact hlook ▸ .settled hsettled₀
      · -- the cell was begun itself, so it waits for itself
        have hcycle : TransGen (p₀.Reads s) b b := hb b hbegun
        obtain ⟨c, ⟨f, hf, -⟩, -⟩ := TransGen.head'_iff.mp hcycle
        exact .circular hf (.of_cycle hcycle)
    · have hpath₀ : ¬ p₀.path.contains b = true := hp.off_path hpath
      have hsettled₀ : p₀.pending? s b = none := by
        rw [pending?_eq_none_iff, Std.ExtTreeMap.contains_eq_isSome_getElem?, hmemo] at hsettled
        rcases hsettled with hfalse | hpath' | hcell
        · cases hfalse
        · exact absurd hpath' hpath
        · exact pending?_eq_none_iff.mpr (.inr (.inr hcell))
      rw [if_neg hpath]
      simpa only [look, hmemo₀, if_neg hpath₀] using Means.settled hsettled₀

/-- A literal that is noted is noted as what it means. -/
theorem Faithful.noteLiteral (hm : p₀.Faithful s p.memo) (hp : p₀.Extends p.path begun)
    (a : Address) : p₀.Faithful s (p.noteLiteral s a).memo := by
  rcases noteLiteral_cases s p a with hsame | ⟨raw, hcell, hformula, hmemo, hpath, hnoted⟩
  · rw [hsame]
    exact hm
  · have hsettled : p₀.pending? s a = none := by
      rw [pending?_eq_none_iff, hcell]
      exact .inr (.inr hformula)
    have hpath₀ : ¬ p₀.path.contains a = true := hp.off_path (Bool.eq_false_iff.mp hpath)
    have hlook : p₀.look s a = .text raw := by
      simp only [look, hm.not_known hmemo, if_neg hpath₀, hcell]
    rw [hnoted]
    exact hm.insert (hlook ▸ Means.settled hsettled)

/-! ## The frames of a walk -/

/-- A frame that has been begun: it holds the formula that was pending at first, and whatever it
reads is settled or unread. -/
structure Begun (s : Store) (p₀ p : Pass) (frame : Frame) : Prop where
  pending : p₀.pending? s frame.cell = some frame.formula
  unread : ∀ b ∈ frame.unread, b ∈ frame.formula.reads s
  read : ∀ b ∈ frame.formula.reads s, b ∈ frame.unread ∨ p.pending? s b = none

/-- What holds all along a walk that began in `p₀`: memo and path go on from there, and each frame
waits for all frames above it. -/
structure Underway (s : Store) (p₀ p : Pass) (frames : List Frame) : Prop where
  memo : p₀.Faithful s p.memo
  path : p₀.Extends p.path (frames.map Frame.cell)
  nodup : (frames.map Frame.cell).Nodup
  waiting : (frames.map Frame.cell).Pairwise fun upper lower => TransGen (p₀.Reads s) lower upper
  begun : ∀ frame ∈ frames, p₀.Begun s p frame

theorem Begun.mono {q : Pass} (h : p₀.Begun s p frame)
    (hsettled : ∀ b, p.pending? s b = none → q.pending? s b = none) : p₀.Begun s q frame where
  pending := h.pending
  unread := h.unread
  read b hb := (h.read b hb).imp_right (hsettled b)

theorem Underway.refl (s : Store) (p : Pass) : p.Underway s p [] where
  memo := .refl s p
  path := .refl p
  nodup := .nil
  waiting := .nil
  begun := by simp

/-- At the end of a walk the path is what it was. -/
theorem Underway.path_eq (h : p₀.Underway s p []) : p.path = p₀.path := by
  apply Std.ExtTreeSet.ext_contains
  intro a
  rw [Bool.eq_iff_iff, h.path a]
  simp

/-- All cells begun wait for what the top frame reads. -/
theorem Underway.await (h : p₀.Underway s p (frame :: rest)) (hb : b ∈ frame.formula.reads s) :
    p₀.Await s ((frame :: rest).map Frame.cell) b := by
  have hreads : p₀.Reads s frame.cell b :=
    ⟨frame.formula, (h.begun frame List.mem_cons_self).pending, hb⟩
  have hwait : p₀.Await s (rest.map Frame.cell) frame.cell := (List.pairwise_cons.mp h.waiting).1
  exact hwait.cons hreads

/-- What a frame has not read may change as long as the frame stays begun. -/
theorem Underway.congr {frames others : List Frame} (h : p₀.Underway s p frames)
    (hcells : others.map Frame.cell = frames.map Frame.cell)
    (hbegun : ∀ frame ∈ others, p₀.Begun s p frame) : p₀.Underway s p others where
  memo := h.memo
  path := hcells ▸ h.path
  nodup := hcells ▸ h.nodup
  waiting := hcells ▸ h.waiting
  begun := hbegun

/-! ## The steps of a walk -/

theorem firstPending?_eq_some {cells unread : List Address}
    (h : Frame.firstPending? s p cells = some (a, f, unread)) :
    ∃ before, cells = before ++ a :: unread ∧ ∀ b ∈ before, p.pending? s b = none := by
  induction cells with
  | nil => cases h
  | cons c cells ih =>
    rw [Frame.firstPending?] at h
    cases hc : p.pending? s c with
    | some g =>
      simp only [hc, Option.some.injEq, Prod.mk.injEq] at h
      obtain ⟨rfl, -, rfl⟩ := h
      exact ⟨[], rfl, by simp⟩
    | none =>
      rw [hc] at h
      obtain ⟨before, rfl, hbefore⟩ := ih h
      refine ⟨c :: before, rfl, ?_⟩
      intro b hb
      rcases List.mem_cons.mp hb with rfl | hb
      · exact hc
      · exact hbefore b hb

theorem firstPending?_eq_none {cells : List Address} (h : Frame.firstPending? s p cells = none) :
    ∀ b ∈ cells, p.pending? s b = none := by
  induction cells with
  | nil => simp
  | cons c cells ih =>
    rw [Frame.firstPending?] at h
    cases hc : p.pending? s c with
    | some g =>
      rw [hc] at h
      cases h
    | none =>
      rw [hc] at h
      intro b hb
      rcases List.mem_cons.mp hb with rfl | hb
      · exact hc
      · exact ih h b hb

/-- A frame for a pending cell goes on top, when the cells begun wait for that cell. -/
theorem Underway.push {frames : List Frame} (h : p₀.Underway s p frames)
    (ha : p.pending? s a = some f) (hwait : p₀.Await s (frames.map Frame.cell) a) :
    p₀.Underway s (p.enter a) (Frame.start s a f :: frames) where
  memo := h.memo
  path := h.path.enter a
  nodup := by
    rw [List.map_cons, List.nodup_cons]
    exact ⟨fun hbegun => off_path_of_pending ha ((h.path a).mpr (.inr hbegun)), h.nodup⟩
  waiting := List.pairwise_cons.mpr ⟨hwait, h.waiting⟩
  begun frame hframe := by
    rcases List.mem_cons.mp hframe with rfl | hframe
    · exact ⟨pending?_eq_of_later h.memo h.path ha, fun b hb => hb, fun b hb => .inl hb⟩
    · exact (h.begun frame hframe).mono fun b hb => settled_enter a hb

/-- The top frame gives way to a frame for the first pending cell that it has not read. -/
theorem Underway.descend {unread : List Address} (h : p₀.Underway s p (frame :: rest))
    (hfirst : Frame.firstPending? s p frame.unread = some (a, f, unread)) :
    p₀.Underway s (p.enter a) (Frame.start s a f :: { frame with unread } :: rest) := by
  have ha : p.pending? s a = some f := firstPending?_pending hfirst
  obtain ⟨before, hsplit, hbefore⟩ := firstPending?_eq_some hfirst
  have htop := h.begun frame List.mem_cons_self
  have hmem : a ∈ frame.formula.reads s := htop.unread a (by rw [hsplit]; simp)
  have hpush := h.push ha (h.await hmem)
  refine hpush.congr rfl ?_
  intro other hother
  rcases List.mem_cons.mp hother with rfl | hother
  · exact hpush.begun _ List.mem_cons_self
  · rcases List.mem_cons.mp hother with rfl | hother
    · refine ⟨htop.pending, fun b hb => htop.unread b (by rw [hsplit]; simp [hb]), ?_⟩
      intro b hb
      -- what was unread is a cell before the new one, the new one itself, or still unread
      rcases htop.read b hb with hunread | hsettled
      · rw [hsplit, List.mem_append, List.mem_cons] at hunread
        rcases hunread with hb | rfl | hb
        · exact .inr (settled_enter a (hbefore b hb))
        · exact .inr (pending?_eq_none_iff.mpr (.inr (.inl (by simp [enter]))))
        · exact .inl hb
      · exact .inr (settled_enter a hsettled)
    · exact hpush.begun other (by simp [hother])

theorem Underway.noteLiteral {frames : List Frame} (h : p₀.Underway s p frames) (a : Address) :
    p₀.Underway s (p.noteLiteral s a) frames where
  memo := h.memo.noteLiteral h.path a
  path := by
    rw [path_noteLiteral]
    exact h.path
  nodup := h.nodup
  waiting := h.waiting
  begun frame hframe := (h.begun frame hframe).mono fun b hb => settled_noteLiteral a hb

/-- The top frame is left with what its cell means. -/
theorem Underway.leave (h : p₀.Underway s p (frame :: rest))
    (hv : p₀.Means s frame.cell v) : p₀.Underway s (p.leave frame.cell v) rest where
  memo := h.memo.insert hv
  path b := by
    have hfresh : ¬ p₀.path.contains frame.cell = true :=
      off_path_of_pending (h.begun frame List.mem_cons_self).pending
    have hnodup := (List.nodup_cons.mp h.nodup).1
    by_cases hb : frame.cell = b
    · subst hb
      simp [Pass.leave, hfresh, hnodup]
    · have hpath := h.path b
      rw [List.map_cons, List.mem_cons, or_iff_right (Ne.symm hb)] at hpath
      simpa [Pass.leave, hb] using hpath
  nodup := (List.nodup_cons.mp h.nodup).2
  waiting := (List.pairwise_cons.mp h.waiting).2
  begun other hother :=
    (h.begun other (List.mem_cons_of_mem _ hother)).mono fun b hb => settled_leave _ v hb

/-- The top frame is closed with what its cell means, when all that it had not read is settled. -/
theorem Underway.close (h : p₀.Underway s p (frame :: rest))
    (hsettled : ∀ b ∈ frame.unread, p.pending? s b = none) :
    p₀.Underway s (p.close s frame) rest := by
  -- noting the literals among the cells read leaves the frames as they are
  have hread := consult_induction (s := s) (u := frame.formula.stopsAtCircular)
    (motive := fun q => p₀.Underway s q (frame :: rest) ∧ ∀ b ∈ frame.unread, q.pending? s b = none)
    (fun q c hq => ⟨hq.1.noteLiteral c, fun b hb => settled_noteLiteral c (hq.2 b hb)⟩)
    (frame.formula.reads s) p ⟨h, hsettled⟩
  have htop := hread.1.begun frame List.mem_cons_self
  refine hread.1.leave (.of_reads htop.pending fun b hb => ?_)
  apply means_look hread.1.memo hread.1.path (hread.1.await hb)
  rcases htop.read b hb with hunread | hnone
  · exact hread.2 b hunread
  · exact hnone

/-- **The walk.** Whatever was right before it is right after it, and no frame is left. -/
theorem Underway.walk {frames : List Frame} (h : p₀.Underway s p frames) :
    p₀.Underway s (p.walk s frames) [] := by
  fun_induction Pass.walk s p frames with
  | case1 p => exact h
  | case2 p frame rest a f unread hfirst ih => exact ih (h.descend hfirst)
  | case3 p frame rest hfirst ih => exact ih (h.close (firstPending?_eq_none hfirst))

end FormulaSheet.Pass
