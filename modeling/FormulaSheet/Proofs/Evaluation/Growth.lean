/-
What a call adds to the memo.

A pass is handed from call to call, and each call finds in the memo what the
earlier ones left there. So it matters what a call does to the memo besides
giving a value. It adds to it and never changes what is there, although a cell
may be asked for many times, on many paths and inside a circle: a frame is opened
for a pending cell only, a pending cell is not known, and while its frame is open
the cell is on the path, where no literal is noted.

What is added belongs to cells that the call has to do with. A set of cells that
holds with each cell all that the cell reads is never left by a walk that begins
in it, so the set of the cells to which the request leads will do. The
invariant (`Grown`) is carried through the walk beside the one that says that
the walk is right (`Underway`), which tells what is on the path.
-/
import FormulaSheet.Proofs.Evaluation.Sharing
import FormulaSheet.Proofs.Evaluation.Solution

set_option autoImplicit false

namespace FormulaSheet

open Relation (ReflTransGen)

/-- The cells to which a request leads by reads: the cell that is asked for, or what the body of the
text looks up, and whatever can be reached from there. -/
def Request.LeadsTo (s : Store) : Request → Address → Prop
  | .cell a, b => ReflTransGen s.Reads a b
  | .text raw, b =>
    ∃ body, raw.toList = '=' :: body ∧ ∃ a ∈ s.lookups body, ReflTransGen s.Reads a b

namespace Pass

variable {s : Store} {p₀ p : Pass} {a b : Address} {f : Formula} {v : Value} {memo : Memo}
  {relevant : Address → Prop} {begun : List Address} {frame : Frame} {rest : List Frame}

/-- A memo that has grown from the one of a pass by relevant cells only. -/
structure Grown (s : Store) (p : Pass) (relevant : Address → Prop) (memo : Memo) : Prop where
  /-- What was known is known, and is what it was. -/
  kept : ∀ (a : Address) (v : Value), p.memo[a]? = some v → memo[a]? = some v
  /-- What is new belongs to a relevant cell that holds a text and was not on the path. For a
  literal it is that text. -/
  added : ∀ (a : Address) (v : Value), p.memo[a]? = none → memo[a]? = some v →
    ∃ raw, s.get? a = some raw ∧ raw ≠ "" ∧ p.path.contains a = false ∧ relevant a ∧
      (Formula.ofRaw? raw = none → v = .text raw)

/-! ## What is pending, and what it reads -/

/-- A pending cell is neither known nor on the path, and holds its formula. -/
theorem exists_raw_of_pending (h : p.pending? s a = some f) :
    p.memo[a]? = none ∧ p.path.contains a = false ∧
      ∃ raw, s.get? a = some raw ∧ Formula.ofRaw? raw = some f := by
  unfold pending? at h
  split at h
  · cases h
  · next hknown =>
    rw [Bool.or_eq_true, not_or, Bool.not_eq_true, Bool.not_eq_true] at hknown
    obtain ⟨raw, hraw, hformula⟩ := Option.bind_eq_some_iff.mp h
    refine ⟨?_, hknown.2, raw, hraw, hformula⟩
    rw [← Option.not_isSome_iff_eq_none, ← Std.ExtTreeMap.contains_eq_isSome_getElem?, hknown.1]
    exact Bool.false_ne_true

/-- A cell with a body is pending when it is neither known nor on the path. -/
theorem pending?_of_body? {body : List Char} (hbody : s.body? a = some body)
    (hmemo : p.memo[a]? = none) (hpath : p.path.contains a = false) :
    p.pending? s a = some (Formula.ofChars body) := by
  have hinitial : initial.pending? s a = (s.get? a).bind Formula.ofRaw? := by
    simp [pending?, initial]
  have hknown : ¬ (p.memo.contains a || p.path.contains a) = true := by
    simp [Std.ExtTreeMap.contains_eq_isSome_getElem?, hmemo, hpath]
  rw [pending?, if_neg hknown, ← hinitial, pending?_initial, hbody, Option.map_some]

/-- Whatever a cell reads in a pass it reads in the store. -/
theorem Reads.reads (h : p.Reads s a b) : s.Reads a b := by
  obtain ⟨f, hf, hb⟩ := h
  obtain ⟨body, hbody, rfl⟩ := exists_body_of_pending hf
  rw [Formula.reads_ofChars] at hb
  exact ⟨body, hbody, hb⟩

/-! ## One entry more -/

theorem Grown.refl (s : Store) (p : Pass) (relevant : Address → Prop) :
    p.Grown s relevant p.memo where
  kept _ _ h := h
  added a v hnone hsome := by
    rw [hnone] at hsome
    cases hsome

/-- What a memo lacks was not known when it began to grow. -/
theorem Grown.not_known (h : p₀.Grown s relevant memo) (hnone : memo[a]? = none) :
    p₀.memo[a]? = none := by
  cases h₀ : p₀.memo[a]? with
  | none => rfl
  | some v =>
    rw [h.kept a v h₀] at hnone
    cases hnone

/-- A cell that holds nothing is neither put in nor taken out. -/
theorem Grown.getElem?_of_missing (h : p₀.Grown s relevant memo) (hmissing : s.get? a = none) :
    memo[a]? = p₀.memo[a]? := by
  cases h₀ : p₀.memo[a]? with
  | some v => exact h.kept a v h₀
  | none =>
    cases hmemo : memo[a]? with
    | none => rfl
    | some v =>
      obtain ⟨raw, hraw, -⟩ := h.added a v h₀ hmemo
      rw [hmissing] at hraw
      cases hraw

/-- What is put in may be anything for a formula, and for a literal it is the literal. -/
theorem Grown.insert {raw : String} (h : p₀.Grown s relevant memo) (hnew : p₀.memo[a]? = none)
    (hpath : p₀.path.contains a = false) (hrelevant : relevant a) (hraw : s.get? a = some raw)
    (hv : Formula.ofRaw? raw = none → v = .text raw) :
    p₀.Grown s relevant (memo.insert a v) where
  kept b w hb := by
    have hne : a ≠ b := by
      rintro rfl
      rw [hnew] at hb
      cases hb
    rw [Std.ExtTreeMap.getElem?_insert, if_neg (by simpa using hne)]
    exact h.kept b w hb
  added b w hb hw := by
    rw [Std.ExtTreeMap.getElem?_insert] at hw
    split at hw
    · next hab =>
      rw [Std.LawfulEqOrd.compare_eq_iff_eq] at hab
      subst hab
      rw [Option.some.injEq] at hw
      subst hw
      have hne : raw ≠ "" := by
        rintro rfl
        exact s.get?_ne_some_empty a hraw
      exact ⟨raw, hraw, hne, hpath, hrelevant, hv⟩
    · exact h.added b w hb hw

/-- To note a relevant cell lets the memo grow. -/
theorem Grown.noteLiteral (h : p₀.Grown s relevant p.memo) (hp : p₀.Extends p.path begun)
    (ha : relevant a) : p₀.Grown s relevant (p.noteLiteral s a).memo := by
  rcases noteLiteral_cases s p a with hsame | ⟨raw, hcell, -, hmemo, hpath, hnoted⟩
  · rw [hsame]
    exact h
  · have hpath₀ : ¬ p₀.path.contains a = true := hp.off_path (Bool.eq_false_iff.mp hpath)
    rw [hnoted]
    exact h.insert (h.not_known hmemo) (Bool.eq_false_iff.mpr hpath₀) ha hcell fun _ => rfl

/-! ## The walk -/

section

variable (hshut : ∀ a b, relevant a → s.Reads a b → relevant b)

include hshut

/-- To close a relevant frame lets the memo grow: by literals among the cells it reads, and by its
own cell. -/
theorem Grown.close (h : p₀.Grown s relevant p.memo) (hunder : p₀.Underway s p (frame :: rest))
    (hframe : relevant frame.cell) : p₀.Grown s relevant (p.close s frame).memo := by
  have hpending := (hunder.begun frame List.mem_cons_self).pending
  have hreads : ∀ b ∈ frame.formula.reads s, relevant b := fun b hb =>
    hshut frame.cell b hframe (Reads.reads ⟨frame.formula, hpending, hb⟩)
  have hread := consult_induction_mem (s := s) (u := frame.formula.stopsAtCircular)
    (motive := fun q => p₀.Underway s q (frame :: rest) ∧ p₀.Grown s relevant q.memo)
    (fun q b hb hq => ⟨hq.1.noteLiteral b, hq.2.noteLiteral hq.1.path (hreads b hb)⟩) p ⟨hunder, h⟩
  obtain ⟨hmemo, hpath, raw, hraw, hformula⟩ := exists_raw_of_pending hpending
  refine hread.2.insert hmemo hpath hframe hraw fun hliteral => ?_
  rw [hformula] at hliteral
  cases hliteral

/-- **A walk that begins among relevant cells** lets the memo grow by relevant cells only. -/
theorem Grown.walk {frames : List Frame} (h : p₀.Grown s relevant p.memo)
    (hunder : p₀.Underway s p frames) (hframes : ∀ frame ∈ frames, relevant frame.cell) :
    p₀.Grown s relevant (p.walk s frames).memo := by
  fun_induction Pass.walk s p frames with
  | case1 p => exact h
  | case2 p frame rest a f unread hfirst ih =>
    -- the new frame is for a cell that the top frame reads
    have htop := hunder.begun frame List.mem_cons_self
    obtain ⟨before, hsplit, -⟩ := firstPending?_eq_some hfirst
    have hreads : p₀.Reads s frame.cell a :=
      ⟨frame.formula, htop.pending, htop.unread a (by rw [hsplit]; simp)⟩
    have hframe : relevant frame.cell := hframes frame List.mem_cons_self
    have ha : relevant a := hshut _ _ hframe hreads.reads
    refine ih h (hunder.descend hfirst) ?_
    intro other hother
    rcases List.mem_cons.mp hother with rfl | hother
    · exact ha
    · rcases List.mem_cons.mp hother with rfl | hother
      · exact hframe
      · exact hframes other (List.mem_cons_of_mem _ hother)
  | case3 p frame rest hfirst ih =>
    exact ih (h.close hshut hunder (hframes frame List.mem_cons_self))
      (hunder.close (firstPending?_eq_none hfirst))
      fun other hother => hframes other (List.mem_cons_of_mem _ hother)

theorem Grown.settle (h : p₀.Grown s relevant p.memo) (hunder : p₀.Underway s p [])
    (ha : relevant a) : p₀.Grown s relevant (p.settle s a).memo := by
  unfold Pass.settle
  split
  · next f hpending =>
    have hbegun := hunder.push hpending .nil
    refine Grown.walk hshut (p := p.enter a) h hbegun ?_
    intro frame hframe
    obtain rfl := List.mem_singleton.mp hframe
    exact ha
  · exact h.noteLiteral hunder.path ha

end

/-! ## Calls -/

/-- A request lets the memo grow by cells to which it leads. -/
theorem grown_answer (s : Store) (p : Pass) (r : Request) :
    p.Grown s (r.LeadsTo s) (p.answer s r).2.memo := by
  have hbegin := Grown.refl s p (r.LeadsTo s)
  have hunder := Underway.refl s p
  cases r with
  | cell a =>
    have hshut : ∀ b c, ReflTransGen s.Reads a b → s.Reads b c → ReflTransGen s.Reads a c :=
      fun _ _ hab hbc => hab.tail hbc
    exact hbegin.settle hshut hunder .refl
  | text raw =>
    simp only [answer, evaluateRaw]
    cases hformula : Formula.ofRaw? raw with
    | none => exact hbegin
    | some f =>
      obtain ⟨body, hraw⟩ := Store.exists_body_of_ofRaw? hformula
      obtain rfl : Formula.ofChars body = f := by
        simpa only [Formula.ofRaw?, hraw, Option.some.injEq] using hformula
      have hshut : ∀ b c, Request.LeadsTo s (.text raw) b → s.Reads b c →
          Request.LeadsTo s (.text raw) c := by
        rintro b c ⟨body, hraw, a, ha, hab⟩ hbc
        exact ⟨body, hraw, a, ha, hab.tail hbc⟩
      have hreads : ∀ b ∈ (Formula.ofChars body).reads s, Request.LeadsTo s (.text raw) b := by
        intro b hb
        rw [Formula.reads_ofChars] at hb
        exact ⟨body, hraw, b, hb, .refl⟩
      exact (consult_induction_mem
        (motive := fun q => p.Underway s q [] ∧ p.Grown s (Request.LeadsTo s (.text raw)) q.memo)
        (fun q b hb hq => ⟨hq.1.settle b, hq.2.settle hshut hq.1 (hreads b hb)⟩)
        p ⟨hunder, hbegin⟩).2

/-- The value of a cell that was pending is in the memo afterwards. -/
theorem memo_evaluate_of_pending (h : p.pending? s a = some f) :
    (p.evaluate s a).2.memo[a]? = some (p.evaluate s a).1 := by
  obtain ⟨-, hpath, raw, hraw, hformula⟩ := exists_raw_of_pending h
  have hback : (p.evaluate s a).2.path = p.path := ((Underway.refl s p).evaluate a).2.path_eq
  have hsettled : (p.evaluate s a).2.pending? s a = none := settled_settle_self s p a
  have hknown : (p.evaluate s a).2.memo.contains a = true := by
    rcases pending?_eq_none_iff.mp hsettled with hmemo | hon | hcell
    · exact hmemo
    · rw [hback, hpath] at hon
      cases hon
    · rw [hraw, Option.bind_some, hformula] at hcell
      cases hcell
  rw [Std.ExtTreeMap.contains_eq_isSome_getElem?, Option.isSome_iff_exists] at hknown
  obtain ⟨v, hv⟩ := hknown
  have hlook : (p.evaluate s a).1 = v := by
    have hevaluate : (p.evaluate s a).1 = (p.evaluate s a).2.look s a := rfl
    rw [hevaluate, look, hv]
  rw [hv, hlook]

/-- **The memo only grows.** Whatever is remembered at the beginning, a call keeps every entry as it
was, and adds entries only for cells to which the request leads, that hold something and were not on
the path; a literal is added as it is written, and nothing at all for a cell that holds nothing. A
formula that is neither known nor on the path is in the memo afterwards, with the value that the
call gives. -/
theorem memo_only_grows (s : Store) (p : Pass) :
    (∀ r : Request, p.Grown s (r.LeadsTo s) (p.answer s r).2.memo ∧
      ∀ a, s.get? a = none → (p.answer s r).2.memo[a]? = p.memo[a]?) ∧
    ∀ a body, s.body? a = some body → p.memo[a]? = none → p.path.contains a = false →
      (p.evaluate s a).2.memo[a]? = some (p.evaluate s a).1 := by
  refine ⟨fun r => ⟨grown_answer s p r, fun a hmissing => ?_⟩, fun a body hbody hmemo hpath => ?_⟩
  · exact (grown_answer s p r).getElem?_of_missing hmissing
  · exact memo_evaluate_of_pending (pending?_of_body? hbody hmemo hpath)

/-- A sum and an expression that read each other, beside a cell that is known already. -/
theorem memo_only_grows_circle :
    let s := ((Store.empty.set ⟨0, 0⟩ "=B1+D1").set ⟨0, 1⟩ "=SUM(A1:C1)").set ⟨0, 2⟩ "7 kg"
    let p : Pass := ⟨(∅ : Memo).insert ⟨0, 3⟩ (.text "9"), ∅⟩
    s.body? ⟨0, 0⟩ = some "B1+D1".toList ∧ p.memo[(⟨0, 0⟩ : Address)]? = none ∧
      p.path.contains ⟨0, 0⟩ = false ∧
      (p.evaluate s ⟨0, 0⟩).2.memo[(⟨0, 0⟩ : Address)]? = some (p.evaluate s ⟨0, 0⟩).1 ∧
      (p.evaluate s ⟨0, 0⟩).2.memo[(⟨0, 3⟩ : Address)]? = some (.text "9") := by
  intro s p
  have hbody : s.body? ⟨0, 0⟩ = some "B1+D1".toList := by decide +kernel
  have hmemo : p.memo[(⟨0, 0⟩ : Address)]? = none := by decide +kernel
  have hpath : p.path.contains ⟨0, 0⟩ = false := by decide +kernel
  have hknown : p.memo[(⟨0, 3⟩ : Address)]? = some (.text "9") := by decide +kernel
  obtain ⟨hgrown, hstored⟩ := memo_only_grows s p
  exact ⟨hbody, hmemo, hpath, hstored ⟨0, 0⟩ _ hbody hmemo hpath,
    (hgrown (.cell ⟨0, 0⟩)).1.kept ⟨0, 3⟩ _ hknown⟩

end Pass

end FormulaSheet
