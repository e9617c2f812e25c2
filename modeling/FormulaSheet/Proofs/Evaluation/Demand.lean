/-
What is in the memo when a cell has been worked out.

The walk and the plain recursion give every cell the same value, and what they
leave in the memo are values of cells. But they do not visit the same cells. The
recursion asks for a cell where a body needs it, and a sum gives up at its first
circular member, so whatever stands behind that member is never asked for. A
frame of the walk settles all that its body reads before the body is applied.
Only with literals the walk is as sparing as the recursion, because these are
noted when the body is applied.

So the memo of the recursion holds the cells to which *demands* lead, and a body
demands what it reads up to the first circular member of a sum. The memo of the
walk holds the formulas to which *reads* lead, and the literals that they demand.
Each is shown in the same way: nothing else is ever noted, and whatever a noted
formula demands, or reads, is noted too unless it waits on the path, which is
empty in the end. The two memos are thus the same exactly if no formula is
reached by reads alone, and always if the cell is not circular
(`memos_agree_exactly`).
-/
import FormulaSheet.Proofs.Evaluation.Growth
import FormulaSheet.Proofs.Evaluation.Recursion

set_option autoImplicit false

namespace FormulaSheet

open Relation (ReflTransGen)

/-! ## Demands -/

/-- The cells that are asked for one after another. With `untilCircular` the first circular one is
the last. -/
def Formula.demanded (values : Address → Value) (untilCircular : Bool) :
    List Address → List Address
  | [] => []
  | a :: rest =>
    if untilCircular && (values a).isCircular then [a] else a :: demanded values untilCircular rest

/-- A cell demands another one: its body looks it up, and if the body is a sum, no member before it
is circular. -/
def Store.Demands (s : Store) (a b : Address) : Prop :=
  ∃ body before after, s.body? a = some body ∧ s.lookups body = before ++ b :: after ∧
    (Formula.sumCorners? body ≠ none → ∀ c ∈ before, s.evaluate c ≠ .error .circular)

namespace Formula

variable {values : Address → Value} {untilCircular : Bool} {cells : List Address} {a : Address}

theorem mem_demanded_iff :
    a ∈ demanded values untilCircular cells ↔ ∃ before after, cells = before ++ a :: after ∧
      (untilCircular = true → ∀ c ∈ before, values c ≠ .error .circular) := by
  induction cells with
  | nil => simp [demanded]
  | cons b rest ih =>
    rw [demanded]
    by_cases hstop : (untilCircular && (values b).isCircular) = true
    · rw [if_pos hstop, List.mem_singleton]
      rw [Bool.and_eq_true, Value.isCircular_iff] at hstop
      constructor
      · rintro rfl
        exact ⟨[], rest, rfl, fun _ => List.forall_mem_nil _⟩
      · rintro ⟨before, after, hsplit, hclear⟩
        cases before with
        | nil => exact (List.cons.inj hsplit).1.symm
        | cons c before =>
          obtain rfl := (List.cons.inj hsplit).1
          exact absurd hstop.2 (hclear hstop.1 _ List.mem_cons_self)
    · rw [if_neg hstop, List.mem_cons, ih]
      rw [Bool.and_eq_true, Value.isCircular_iff, not_and] at hstop
      constructor
      · rintro (rfl | ⟨before, after, rfl, hclear⟩)
        · exact ⟨[], rest, rfl, fun _ => List.forall_mem_nil _⟩
        · exact ⟨b :: before, after, rfl, fun hu =>
            List.forall_mem_cons.mpr ⟨hstop hu, hclear hu⟩⟩
      · rintro ⟨before, after, hsplit, hclear⟩
        cases before with
        | nil => exact .inl (List.cons.inj hsplit).1.symm
        | cons c before =>
          obtain ⟨rfl, rfl⟩ := List.cons.inj hsplit
          exact .inr ⟨before, after, rfl, fun hu c hc => hclear hu c (List.mem_cons_of_mem _ hc)⟩

theorem demanded_subset (h : a ∈ demanded values untilCircular cells) : a ∈ cells := by
  obtain ⟨before, after, rfl, -⟩ := mem_demanded_iff.mp h
  exact List.mem_append_right _ List.mem_cons_self

theorem demanded_congr {values' : Address → Value} (h : ∀ a ∈ cells, values a = values' a) :
    demanded values untilCircular cells = demanded values' untilCircular cells := by
  induction cells with
  | nil => rfl
  | cons a rest ih =>
    rw [List.forall_mem_cons] at h
    rw [demanded, demanded, h.1, ih h.2]

theorem stopsAtCircular_ofChars {body : List Char} :
    (ofChars body).stopsAtCircular = true ↔ sumCorners? body ≠ none := by
  unfold ofChars
  cases sumCorners? body with
  | none => exact iff_of_false nofun (· rfl)
  | some corners => exact iff_of_true rfl nofun

end Formula

namespace Store

variable {s : Store} {a b c : Address}

/-- A cell with a formula demands the cells that the formula is asked for. -/
theorem demands_iff {body : List Char} (h : s.body? a = some body) :
    s.Demands a b ↔ b ∈ Formula.demanded s.evaluate (Formula.ofChars body).stopsAtCircular
      ((Formula.ofChars body).reads s) := by
  rw [Formula.mem_demanded_iff, Formula.reads_ofChars, Demands]
  constructor
  · rintro ⟨body', before, after, hbody', hsplit, hclear⟩
    obtain rfl : body = body' := Option.some.inj (h.symm.trans hbody')
    exact ⟨before, after, hsplit, fun hu => hclear (Formula.stopsAtCircular_ofChars.mp hu)⟩
  · rintro ⟨before, after, hsplit, hclear⟩
    exact ⟨body, before, after, h, hsplit,
      fun hu => hclear (Formula.stopsAtCircular_ofChars.mpr hu)⟩

/-- A cell holds a literal when it holds something that is no formula. -/
def HoldsLiteral (s : Store) (a : Address) : Prop :=
  s.get? a ≠ none ∧ s.body? a = none

theorem body?_eq_none_iff : s.body? a = none ↔ (s.get? a).bind Formula.ofRaw? = none := by
  have hinitial : Pass.initial.pending? s a = (s.get? a).bind Formula.ofRaw? := by
    simp [Pass.pending?, Pass.initial]
  rw [← hinitial, Pass.pending?_initial, Option.map_eq_none_iff]

theorem holdsLiteral_iff :
    s.HoldsLiteral a ↔ ∃ raw, s.get? a = some raw ∧ Formula.ofRaw? raw = none := by
  rw [HoldsLiteral, body?_eq_none_iff]
  cases s.get? a with
  | none => simp
  | some raw => simp

theorem get?_ne_none_of_body? {body : List Char} (h : s.body? a = some body) :
    s.get? a ≠ none := by
  intro hnone
  rw [body?, hnone] at h
  cases h

theorem reads_iff {body : List Char} (h : s.body? a = some body) :
    s.Reads a b ↔ b ∈ s.lookups body := by
  constructor
  · rintro ⟨body', hbody', hb⟩
    rwa [Option.some.inj (h.symm.trans hbody')]
  · exact fun hb => ⟨body, h, hb⟩

/-- Only a formula reads anything. -/
theorem Reads.body? (h : s.Reads a b) : s.body? a ≠ none := by
  obtain ⟨body, hbody, -⟩ := h
  rw [hbody]
  nofun

theorem Reads.get? (h : s.Reads a b) : s.get? a ≠ none := by
  obtain ⟨body, hbody, -⟩ := h
  exact get?_ne_none_of_body? hbody

theorem Demands.reads (h : s.Demands a b) : s.Reads a b := by
  obtain ⟨body, before, after, hbody, hsplit, -⟩ := h
  exact ⟨body, hbody, by rw [hsplit]; exact List.mem_append_right _ List.mem_cons_self⟩

theorem Demands.body? (h : s.Demands a b) : s.body? a ≠ none :=
  h.reads.body?

/-- Where no circle is read all that is read is demanded. -/
theorem Reads.demands (h : s.Reads a b) (hclear : ∀ c, s.Reads a c →
    s.evaluate c ≠ .error .circular) : s.Demands a b := by
  obtain ⟨body, hbody, hb⟩ := h
  obtain ⟨before, after, hsplit⟩ := List.append_of_mem hb
  refine ⟨body, before, after, hbody, hsplit, fun _ c hc => hclear c ⟨body, hbody, ?_⟩⟩
  rw [hsplit]
  exact List.mem_append_left _ hc

end Store

/-! ## The recursion -/

namespace Recursion

variable {s : Store} {p : Pass} {root a b : Address} {f : Formula}

/-- To ask for cells is to ask for the demanded ones, one after another. -/
theorem askAll_eq_foldl {σ : Type} {ask : σ → Address → Value × σ} {values : Address → Value}
    {holds : σ → Prop} {untilCircular : Bool} {cells : List Address}
    (h : ∀ a ∈ cells, Gives ask values holds a) {q : σ} (hq : holds q) :
    askAll ask untilCircular cells q
      = (Formula.demanded values untilCircular cells).foldl (fun q a => (ask q a).2) q := by
  induction cells generalizing q with
  | nil => rfl
  | cons a rest ih =>
    rw [List.forall_mem_cons] at h
    obtain ⟨hvalue, hnext⟩ := h.1 q hq
    rw [askAll, Formula.demanded, hvalue]
    by_cases hstop : (untilCircular && (values a).isCircular) = true
    · rw [if_pos hstop, if_pos hstop]
      rfl
    · rw [if_neg hstop, if_neg hstop]
      exact ih h.2 hnext

/-- A cell has been asked for: it is known, or waits on the path, or holds nothing. -/
def Asked (s : Store) (p : Pass) (a : Address) : Prop :=
  p.memo.contains a = true ∨ p.path.contains a = true ∨ s.get? a = none

/-- What holds between the questions that a cell has led to: only cells to which its demands lead
are known, and all that a known cell demands has been asked for. -/
structure Asking (s : Store) (root : Address) (p : Pass) : Prop where
  known : ∀ a, p.memo.contains a = true → s.get? a ≠ none ∧ ReflTransGen s.Demands root a
  asked : ∀ a b, p.memo.contains a = true → s.Demands a b → Asked s p b

theorem asking_initial (s : Store) (root : Address) : Asking s root .initial where
  known a h := by simp [Pass.initial] at h
  asked a b h := by simp [Pass.initial] at h

theorem contains_insert_memo {memo : Memo} {v : Value} :
    (memo.insert a v).contains b = true ↔ a = b ∨ memo.contains b = true := by
  simp [Std.ExtTreeMap.contains_insert]

/-- One more cell is known, all of whose demands have been asked for. -/
theorem Asking.insert {q : Pass} {v : Value} (h : Asking s root p)
    (hmemo : q.memo = p.memo.insert a v) (hkept : ∀ b, Asked s p b → Asked s q b)
    (hcell : s.get? a ≠ none) (ha : ReflTransGen s.Demands root a)
    (hdemands : ∀ b, s.Demands a b → Asked s p b) : Asking s root q where
  known b hb := by
    rw [hmemo, contains_insert_memo] at hb
    obtain rfl | hb := hb
    · exact ⟨hcell, ha⟩
    · exact h.known b hb
  asked b c hb hbc := by
    rw [hmemo, contains_insert_memo] at hb
    obtain rfl | hb := hb
    · exact hkept c (hdemands c hbc)
    · exact hkept c (h.asked b c hb hbc)

theorem Asked.insert {v : Value} (h : Asked s p b) :
    Asked s { p with memo := p.memo.insert a v } b :=
  h.imp_left fun hb => contains_insert_memo.mpr (.inr hb)

theorem Asked.enter (h : Asked s p b) (a : Address) : Asked s (p.enter a) b :=
  h.imp_right (Or.imp_left fun hb => by simp [Pass.enter, hb])

/-- The one cell that leaves the path is the one that becomes known. -/
theorem Asked.leave (h : Asked s p b) (a : Address) (v : Value) : Asked s (p.leave a v) b := by
  rcases h with hmemo | hpath | hcell
  · exact .inl (contains_insert_memo.mpr (.inr hmemo))
  · by_cases hab : a = b
    · exact .inl (contains_insert_memo.mpr (.inl hab))
    · exact .inr (.inl (by simp [Pass.leave, hab, hpath]))
  · exact .inr (.inr hcell)

/-- What a call does to the books: it keeps them, asks for its cell, and nothing that had been asked
for is forgotten. -/
structure Answered (s : Store) (root a : Address) (p q : Pass) : Prop where
  asking : Asking s root q
  asked : Asked s q a
  kept : ∀ b, Asked s p b → Asked s q b

/-- Questions one after another. -/
theorem answered_foldl {path : Path} (ask : On path → Address → Value × On path)
    (holds : On path → Prop) (cells : List Address)
    (h : ∀ q, ∀ a ∈ cells, holds q → Asking s root q.1 →
      Answered s root a q.1 (ask q a).2.1 ∧ holds (ask q a).2) {q : On path} (hq : holds q)
    (hasking : Asking s root q.1) :
    Asking s root (cells.foldl (fun q a => (ask q a).2) q).1 ∧
      (∀ a ∈ cells, Asked s (cells.foldl (fun q a => (ask q a).2) q).1 a) ∧
      ∀ b, Asked s q.1 b → Asked s (cells.foldl (fun q a => (ask q a).2) q).1 b := by
  induction cells generalizing q with
  | nil => exact ⟨hasking, List.forall_mem_nil _, fun b hb => hb⟩
  | cons a rest ih =>
    obtain ⟨hanswered, hnext⟩ := h q a List.mem_cons_self hq hasking
    obtain ⟨hall, hrest, hkept⟩ :=
      ih (fun q b hb => h q b (List.mem_cons_of_mem _ hb)) hnext hanswered.asking
    exact ⟨hall, List.forall_mem_cons.mpr ⟨hkept a hanswered.asked, hrest⟩,
      fun b hb => hkept b (hanswered.kept b hb)⟩

variable {begun : List Address}

/-- **A call asks for what is demanded** and for nothing else. -/
theorem answered_evaluate (hm : Pass.initial.Faithful s p.memo)
    (hp : Pass.initial.Extends p.path begun) (hwait : Pass.initial.Await s begun a)
    (hasking : Asking s root p) (ha : ReflTransGen s.Demands root a) :
    Answered s root a p (evaluate s p a).2.1 := by
  fun_induction evaluate s p a generalizing begun with
  | case1 p a v hmemo =>
    refine ⟨hasking, .inl ?_, fun b hb => hb⟩
    rw [Std.ExtTreeMap.contains_eq_isSome_getElem?, hmemo]
    rfl
  | case2 p a hmemo hpath => exact ⟨hasking, .inr (.inl hpath), fun b hb => hb⟩
  | case3 p a hmemo hpath hcell => exact ⟨hasking, .inr (.inr hcell), fun b hb => hb⟩
  | case4 p a hmemo hpath raw hcell hliteral =>
    have hnone : s.body? a = none := (Store.holdsLiteral_iff.mpr ⟨raw, hcell, hliteral⟩).2
    refine ⟨hasking.insert rfl (fun _ => Asked.insert) (by simp [hcell]) ha
      fun b hb => absurd hnone hb.body?, .inl (contains_insert_memo.mpr (.inl rfl)),
      fun _ => Asked.insert⟩
  | case5 p a hmemo hpath raw hcell f hformula ih =>
    have hpending : Pass.initial.pending? s a = some f := by
      apply Pass.pending?_eq_of_later hm hp
      rw [Pass.pending?, Std.ExtTreeMap.contains_eq_isSome_getElem?, hmemo, hcell]
      simp [hpath, hformula]
    obtain ⟨body, hbody, rfl⟩ := Pass.exists_body_of_pending hpending
    have hwait' : ∀ b ∈ (Formula.ofChars body).reads s, Pass.initial.Await s (a :: begun) b :=
      fun b hb => hwait.cons ⟨_, hpending, hb⟩
    have hbegun : ∀ q : On (p.enter a).path, Pass.initial.Extends q.1.path (a :: begun) := by
      intro q
      rw [q.2]
      exact hp.enter a
    have hgives : ∀ b ∈ (Formula.ofChars body).reads s,
        Gives (fun (q : On (p.enter a).path) b => q.after (evaluate s q.1 b)) s.evaluate
          (fun q => Pass.initial.Faithful s q.1.memo) b :=
      fun b hb q hq => evaluate_spec hq (hbegun q) (hwait' b hb)
    -- the body asks for what it demands, and each question is answered by a call
    have hentered : Asking s root (p.enter a) :=
      ⟨hasking.known, fun b c hb hbc => (hasking.asked b c hb hbc).enter a⟩
    obtain ⟨hall, hdemanded, hkept⟩ := answered_foldl
      (fun (q : On (p.enter a).path) b => q.after (evaluate s q.1 b))
      (fun q => Pass.initial.Faithful s q.1.memo)
      (Formula.demanded s.evaluate (Formula.ofChars body).stopsAtCircular
        ((Formula.ofChars body).reads s))
      (fun q b hb hq hq' => by
        have hread := Formula.demanded_subset hb
        exact ⟨ih q b hq (hbegun q) (hwait' b hread) hq'
          (ha.tail ((Store.demands_iff hbody).mpr hb)), (hgives b hread q hq).2⟩)
      (q := ⟨p.enter a, rfl⟩) hm hentered
    rw [← askAll_eq_foldl hgives hm, ← snd_formula] at hall hdemanded hkept
    have hdone : ∀ b, s.Demands a b → Asked s _ b :=
      fun b hb => hdemanded b ((Store.demands_iff hbody).mp hb)
    refine ⟨hall.insert rfl (fun b hb => hb.leave a _) (by simp [hcell]) ha hdone,
      .inl (contains_insert_memo.mpr (.inl rfl)), fun b hb => (hkept b (hb.enter a)).leave a _⟩

/-- The recursion leaves in the memo the cells to which demands lead, if they hold something. -/
theorem contains_memo_evaluate_iff (s : Store) (a b : Address) :
    (evaluate s .initial a).2.1.memo.contains b = true ↔
      s.get? b ≠ none ∧ ReflTransGen s.Demands a b := by
  have hanswered : Answered s a a .initial (evaluate s .initial a).2.1 :=
    answered_evaluate (.refl s _) (.refl _) .nil (asking_initial s a) .refl
  have hpath : (evaluate s .initial a).2.1.path = ∅ := (evaluate s .initial a).2.2
  -- in the end nothing waits on the path any more
  have hknown : ∀ c, Asked s (evaluate s .initial a).2.1 c → s.get? c ≠ none →
      (evaluate s .initial a).2.1.memo.contains c = true := by
    rintro c (hmemo | hwaits | hcell) hstored
    · exact hmemo
    · rw [hpath] at hwaits
      simp at hwaits
    · exact absurd hcell hstored
  refine ⟨hanswered.asking.known b, ?_⟩
  rintro ⟨hb, hway⟩
  refine hknown b ?_ hb
  clear hb
  induction hway with
  | refl => exact hanswered.asked
  | tail _ hcd ih => exact hanswered.asking.asked _ _ (hknown _ ih hcd.reads.get?) hcd

end Recursion

/-! ## The walk -/

/-- The cells that a walk notes when it begins with a cell: that cell, the formulas to which its
reads lead, and what these demand. -/
def Store.Visits (s : Store) (a b : Address) : Prop :=
  a = b ∨ (ReflTransGen s.Reads a b ∧ s.body? b ≠ none) ∨
    ∃ c, ReflTransGen s.Reads a c ∧ s.Demands c b

namespace Pass

variable {s : Store} {p : Pass} {root a b : Address} {frame : Frame} {rest : List Frame}

/-! ### Noting one after another -/

theorem consult_noteLiteral (s : Store) (untilCircular : Bool) (cells : List Address) (p : Pass) :
    p.consult s (noteLiteral s) untilCircular cells
      = (Formula.demanded (p.look s) untilCircular cells).foldl (noteLiteral s) p := by
  induction cells generalizing p with
  | nil => rfl
  | cons a rest ih =>
    have hlook : (p.noteLiteral s a).look s = p.look s := funext (look_noteLiteral s p a)
    simp only [consult, Formula.demanded, hlook]
    by_cases hstop : (untilCircular && (p.look s a).isCircular) = true
    · rw [if_pos hstop, if_pos hstop]
      rfl
    · rw [if_neg hstop, if_neg hstop, ih, hlook]
      rfl

/-- To note a cell puts it into the memo if it holds a literal and is not on the path. -/
theorem contains_memo_noteLiteral_iff :
    (p.noteLiteral s a).memo.contains b = true ↔ p.memo.contains b = true ∨
      a = b ∧ p.path.contains b = false ∧ s.HoldsLiteral b := by
  constructor
  · intro hb
    rcases noteLiteral_cases s p a with hsame | ⟨raw, hcell, hliteral, -, hpath, hnoted⟩
    · exact .inl (hsame ▸ hb)
    · rw [hnoted, Recursion.contains_insert_memo] at hb
      obtain rfl | hb := hb
      · exact .inr ⟨rfl, hpath, Store.holdsLiteral_iff.mpr ⟨raw, hcell, hliteral⟩⟩
      · exact .inl hb
  · rintro (hb | ⟨rfl, hpath, hliteral⟩)
    · exact memo_noteLiteral s p a hb
    · obtain ⟨raw, hcell, hraw⟩ := Store.holdsLiteral_iff.mp hliteral
      by_cases hmemo : p.memo.contains a = true
      · exact memo_noteLiteral s p a hmemo
      · simp [noteLiteral, hmemo, hpath, hcell, hraw]

theorem contains_memo_foldl_noteLiteral_iff {cells : List Address} :
    (cells.foldl (noteLiteral s) p).memo.contains b = true ↔ p.memo.contains b = true ∨
      b ∈ cells ∧ p.path.contains b = false ∧ s.HoldsLiteral b := by
  induction cells generalizing p with
  | nil => simp
  | cons a rest ih =>
    rw [List.foldl_cons, ih, contains_memo_noteLiteral_iff, path_noteLiteral, List.mem_cons,
      or_assoc, ← or_and_right, eq_comm (a := b)]

/-! ### What is known in the course of a walk -/

/-- What holds all along a walk: only visited cells are known, and whatever a known cell reads is
settled, and known if it is a literal that the cell demands. -/
structure Logged (s : Store) (root : Address) (p : Pass) : Prop where
  known : ∀ a, p.memo.contains a = true → s.get? a ≠ none ∧ s.Visits root a
  settled : ∀ a b, p.memo.contains a = true → s.Reads a b → p.pending? s b = none
  noted : ∀ a b, p.memo.contains a = true → s.Demands a b → s.HoldsLiteral b →
    p.memo.contains b = true

theorem logged_initial (s : Store) (root : Address) : Logged s root .initial where
  known a h := by simp [initial] at h
  settled a b h := by simp [initial] at h
  noted a b h := by simp [initial] at h

theorem Logged.enter (h : Logged s root p) (a : Address) : Logged s root (p.enter a) where
  known := h.known
  settled b c hb hbc := settled_enter a (h.settled b c hb hbc)
  noted := h.noted

/-- A frame that is closed has all of its cells settled, and the literals among those demanded are
noted. -/
theorem Logged.close (h : Logged s root p) (hunder : initial.Underway s p (frame :: rest))
    (hsettled : ∀ b ∈ frame.unread, p.pending? s b = none)
    (hframe : ReflTransGen s.Reads root frame.cell) : Logged s root (p.close s frame) := by
  have hbegun := hunder.begun frame List.mem_cons_self
  obtain ⟨body, hbody, hformula⟩ := exists_body_of_pending hbegun.pending
  have hread : ∀ b ∈ frame.formula.reads s, p.pending? s b = none := fun b hb =>
    (hbegun.read b hb).elim (hsettled b) id
  -- what the frame sees of its cells is what they mean
  have hlook : ∀ b ∈ frame.formula.reads s, p.look s b = s.evaluate b := fun b hb =>
    means_iff.mp (means_look hunder.memo hunder.path (hunder.await hb) (hread b hb))
  have hdemands : ∀ b, b ∈ Formula.demanded (p.look s) frame.formula.stopsAtCircular
      (frame.formula.reads s) ↔ s.Demands frame.cell b := by
    intro b
    rw [Formula.demanded_congr hlook, Store.demands_iff hbody, hformula]
  have hmemo : ∀ b, (p.close s frame).memo.contains b = true ↔ frame.cell = b ∨
      p.memo.contains b = true ∨
        s.Demands frame.cell b ∧ p.path.contains b = false ∧ s.HoldsLiteral b := by
    intro b
    rw [Pass.close, consult_noteLiteral, Pass.leave, Recursion.contains_insert_memo,
      contains_memo_foldl_noteLiteral_iff, hdemands]
  -- a literal is not on the path, where there are formulas only
  have hoff : ∀ b, s.HoldsLiteral b → p.path.contains b = false := by
    intro b hb
    rw [Bool.eq_false_iff]
    intro hpath
    rcases (hunder.path b).mp hpath with hnone | hmem
    · simp [initial] at hnone
    · obtain ⟨other, hother, rfl⟩ := List.mem_map.mp hmem
      obtain ⟨body, hbody, -⟩ := exists_body_of_pending (hunder.begun other hother).pending
      rw [hb.2] at hbody
      cases hbody
  refine ⟨fun b hb => ?_, fun b c hb hbc => ?_, fun b c hb hbc hc => ?_⟩
  · rcases (hmemo b).mp hb with rfl | hb | ⟨hdemand, -, hliteral⟩
    · exact ⟨Store.get?_ne_none_of_body? hbody, .inr (.inl ⟨hframe, by simp [hbody]⟩)⟩
    · exact h.known b hb
    · exact ⟨hliteral.1, .inr (.inr ⟨_, hframe, hdemand⟩)⟩
  · rcases (hmemo b).mp hb with rfl | hb | ⟨-, -, hliteral⟩
    · refine settled_close frame (hread c ?_)
      rwa [← hformula, Formula.reads_ofChars, ← Store.reads_iff hbody]
    · exact settled_close frame (h.settled b c hb hbc)
    · exact absurd hliteral.2 hbc.body?
  · rcases (hmemo b).mp hb with rfl | hb | ⟨-, -, hliteral⟩
    · exact (hmemo c).mpr (.inr (.inr ⟨hbc, hoff c hc, hc⟩))
    · exact (hmemo c).mpr (.inr (.inl (h.noted b c hb hbc hc)))
    · exact absurd hliteral.2 hbc.body?

theorem Logged.walk {frames : List Frame} (h : Logged s root p)
    (hunder : initial.Underway s p frames)
    (hframes : ∀ frame ∈ frames, ReflTransGen s.Reads root frame.cell) :
    Logged s root (p.walk s frames) := by
  fun_induction Pass.walk s p frames with
  | case1 p => exact h
  | case2 p frame rest a f unread hfirst ih =>
    -- the new frame is for a cell that the top frame reads
    have htop := hunder.begun frame List.mem_cons_self
    obtain ⟨before, hsplit, -⟩ := firstPending?_eq_some hfirst
    have hreads : initial.Reads s frame.cell a :=
      ⟨frame.formula, htop.pending, htop.unread a (by rw [hsplit]; simp)⟩
    rw [List.forall_mem_cons] at hframes
    refine ih (h.enter a) (hunder.descend hfirst) ?_
    rw [List.forall_mem_cons, List.forall_mem_cons]
    exact ⟨hframes.1.tail hreads.reads, hframes⟩
  | case3 p frame rest hfirst ih =>
    rw [List.forall_mem_cons] at hframes
    have hnone := firstPending?_eq_none hfirst
    exact ih (h.close hunder hnone hframes.1) (hunder.close hnone) hframes.2

/-- To evaluate a cell in a pass of its own leaves its walk logged. -/
theorem logged_evaluate (s : Store) (a : Address) :
    Logged s a (initial.evaluate s a).2 := by
  have hinitial := logged_initial s a
  simp only [evaluate, settle]
  cases hpending : initial.pending? s a with
  | some f =>
    exact (hinitial.enter a).walk ((Underway.refl s _).push hpending .nil)
      (List.forall_mem_singleton.mpr .refl)
  | none =>
    have hnobody : s.body? a = none := by
      rw [pending?_initial] at hpending
      exact Option.map_eq_none_iff.mp hpending
    have hmemo : ∀ b, (initial.noteLiteral s a).memo.contains b = true → a = b ∧
        s.HoldsLiteral b := by
      intro b hb
      rcases contains_memo_noteLiteral_iff.mp hb with hb | ⟨hab, -, hliteral⟩
      · simp [initial] at hb
      · exact ⟨hab, hliteral⟩
    refine ⟨fun b hb => ?_, fun b c hb hbc => ?_, fun b c hb hbc => ?_⟩
    · exact ⟨(hmemo b hb).2.1, .inl (hmemo b hb).1⟩
    · exact absurd (hmemo b hb).2.2 hbc.body?
    · exact absurd (hmemo b hb).2.2 hbc.body?

/-- The walk leaves in the memo the cells that it visits, if they hold something. -/
theorem contains_memo_evaluate_iff (s : Store) (a b : Address) :
    (initial.evaluate s a).2.memo.contains b = true ↔ s.get? b ≠ none ∧ s.Visits a b := by
  have hlogged := logged_evaluate s a
  have hpath : (initial.evaluate s a).2.path = ∅ :=
    ((Underway.refl s initial).evaluate a).2.path_eq
  -- a formula that is settled in the end is known, since nothing waits on the path any more
  have hformula : ∀ c, (initial.evaluate s a).2.pending? s c = none → s.body? c ≠ none →
      (initial.evaluate s a).2.memo.contains c = true := by
    intro c hsettled hbody
    rcases pending?_eq_none_iff.mp hsettled with hmemo | hwaits | hcell
    · exact hmemo
    · rw [hpath] at hwaits
      simp at hwaits
    · exact absurd (Store.body?_eq_none_iff.mpr hcell) hbody
  have hknown : ∀ c, ReflTransGen s.Reads a c → s.body? c ≠ none →
      (initial.evaluate s a).2.memo.contains c = true := by
    intro c hway
    induction hway with
    | refl => exact hformula a (settled_settle_self s initial a)
    | tail _ hcd ih => exact hformula _ (hlogged.settled _ _ (ih hcd.body?) hcd)
  refine ⟨hlogged.known b, ?_⟩
  rintro ⟨hb, rfl | ⟨hway, hbody⟩ | ⟨c, hway, hdemand⟩⟩
  · by_cases hbody : s.body? a = none
    · have hpending : initial.pending? s a = none := by rw [pending?_initial, hbody]; rfl
      have hsettle : (initial.evaluate s a).2 = initial.noteLiteral s a := by
        simp only [evaluate, settle, hpending]
      rw [hsettle, contains_memo_noteLiteral_iff]
      exact .inr ⟨rfl, by simp [initial], hb, hbody⟩
    · exact hknown a .refl hbody
  · exact hknown b hway hbody
  · by_cases hbody : s.body? b = none
    · exact hlogged.noted c b (hknown c hway hdemand.body?) hdemand ⟨hb, hbody⟩
    · exact hknown b (hway.tail hdemand.reads) hbody

end Pass

/-! ## The two memos -/

namespace Store

variable {s : Store} {a b : Address}

theorem reads_of_demands (h : ReflTransGen s.Demands a b) : ReflTransGen s.Reads a b :=
  ReflTransGen.mono (fun _ _ hcd => hcd.reads) _ _ h

/-- The walk visits every cell that the recursion asks for. -/
theorem Visits.of_demands (h : ReflTransGen s.Demands a b) : s.Visits a b := by
  rcases ReflTransGen.cases_tail h with hab | ⟨c, hac, hcb⟩
  · exact .inl hab.symm
  · exact .inr (.inr ⟨c, reads_of_demands hac, hcb⟩)

/-- The walk visits no more than that exactly if every formula that is reached by reads is reached
by demands. -/
theorem forall_visits_iff : (∀ b, s.get? b ≠ none → s.Visits a b → ReflTransGen s.Demands a b) ↔
    ∀ b, s.body? b ≠ none → ReflTransGen s.Reads a b → ReflTransGen s.Demands a b := by
  constructor
  · intro h b hbody hway
    obtain ⟨body, hbody'⟩ := Option.ne_none_iff_exists'.mp hbody
    exact h b (get?_ne_none_of_body? hbody') (.inr (.inl ⟨hway, hbody⟩))
  · rintro h b - (rfl | ⟨hway, hbody⟩ | ⟨c, hway, hdemand⟩)
    · exact .refl
    · exact h b hbody hway
    · exact (h c hdemand.body? hway).tail hdemand

/-- A cell that is not circular demands all that it reads, and so do the cells that it leads to. -/
theorem demands_of_reads (h : s.evaluate a ≠ .error .circular) (hway : ReflTransGen s.Reads a b) :
    ReflTransGen s.Demands a b ∧ s.evaluate b ≠ .error .circular := by
  induction hway with
  | refl => exact ⟨.refl, h⟩
  | @tail c d _ hcd ih =>
    have hclear : ∀ e, s.Reads c e → s.evaluate e ≠ .error .circular := by
      intro e hce he
      exact ih.2 (Pass.evaluate_eq_circular_iff.mpr (Pass.circular_initial_iff_exists_reads.mpr
        ⟨e, hce, Pass.evaluate_eq_circular_iff.mp he⟩))
    exact ⟨ih.1.tail (hcd.demands hclear), hclear d hcd⟩

end Store

/-- A memo in which every value is the value of its cell is determined by the cells that it
knows. -/
theorem Pass.Faithful.getElem?_eq_some_iff {s : Store} {memo : Memo}
    (h : Pass.initial.Faithful s memo) (b : Address) (v : Value) :
    memo[b]? = some v ↔ v = s.evaluate b ∧ memo.contains b = true := by
  rw [Std.ExtTreeMap.contains_eq_isSome_getElem?]
  constructor
  · intro hb
    exact ⟨(Pass.means_iff.mp (h.means b v hb)), by rw [hb]; rfl⟩
  · rintro ⟨rfl, hb⟩
    obtain ⟨w, hw⟩ := Option.isSome_iff_exists.mp hb
    rw [hw, Pass.means_iff.mp (h.means b w hw)]
    rfl

/-- **What the two evaluators leave behind.** Both memos hold the values of the cells that they
know, and all that the recursion knows the walk knows too: the recursion the cells to which demands
lead, the walk the cells that it visits. They are the same exactly if every formula that the cell
reaches by reads is reached by demands, which is so whenever the cell is not circular. -/
theorem memos_agree_exactly (s : Store) (a : Address) :
    let walked := (Pass.initial.evaluate s a).2.memo
    let called := (Recursion.evaluate s .initial a).2.1.memo
    (∀ (b : Address) (v : Value), called[b]? = some v ↔
      v = s.evaluate b ∧ s.get? b ≠ none ∧ ReflTransGen s.Demands a b) ∧
    (∀ (b : Address) (v : Value), walked[b]? = some v ↔
      v = s.evaluate b ∧ s.get? b ≠ none ∧ s.Visits a b) ∧
    (∀ (b : Address) (v : Value), called[b]? = some v → walked[b]? = some v) ∧
    (walked = called ↔
      ∀ b, s.body? b ≠ none → ReflTransGen s.Reads a b → ReflTransGen s.Demands a b) ∧
    (s.evaluate a ≠ .error .circular → walked = called) := by
  intro walked called
  have hfaithful : Pass.initial.Faithful s called ∧ Pass.initial.Faithful s walked :=
    ⟨(Recursion.evaluate_spec (.refl s _) (.refl _) .nil).2,
      ((Pass.Underway.refl s _).evaluate a).2.memo⟩
  have hcalled : ∀ (b : Address) (v : Value), called[b]? = some v ↔
      v = s.evaluate b ∧ s.get? b ≠ none ∧ ReflTransGen s.Demands a b := fun b v => by
    rw [hfaithful.1.getElem?_eq_some_iff, Recursion.contains_memo_evaluate_iff]
  have hwalked : ∀ (b : Address) (v : Value), walked[b]? = some v ↔
      v = s.evaluate b ∧ s.get? b ≠ none ∧ s.Visits a b := fun b v => by
    rw [hfaithful.2.getElem?_eq_some_iff, Pass.contains_memo_evaluate_iff]
  have hkept : ∀ (b : Address) (v : Value), called[b]? = some v → walked[b]? = some v := by
    intro b v hb
    obtain ⟨hv, hcell, hway⟩ := (hcalled b v).mp hb
    exact (hwalked b v).mpr ⟨hv, hcell, .of_demands hway⟩
  have hsame : walked = called ↔
      ∀ b, s.body? b ≠ none → ReflTransGen s.Reads a b → ReflTransGen s.Demands a b := by
    rw [← Store.forall_visits_iff]
    constructor
    · intro heq b hcell hvisits
      have hb := (hwalked b _).mpr ⟨rfl, hcell, hvisits⟩
      rw [heq] at hb
      exact ((hcalled b _).mp hb).2.2
    · intro hall
      apply Std.ExtTreeMap.ext_getElem?
      intro b
      apply Option.ext
      intro v
      refine ⟨fun hb => ?_, hkept b v⟩
      obtain ⟨hv, hcell, hvisits⟩ := (hwalked b v).mp hb
      exact (hcalled b v).mpr ⟨hv, hcell, hall b hcell hvisits⟩
  refine ⟨hcalled, hwalked, hkept, hsame, fun h => hsame.mpr fun b _ hway => ?_⟩
  exact (Store.demands_of_reads h hway).1

/-- `A1` holds a sum over itself and `A2`. The recursion stops at `A1`, the walk notes `A2` too. -/
theorem memos_differ_behind_circle :
    let s := (Store.ofEntries [("A1", "=SUM(A1:A2)"), ("A2", "=1")]).1
    (Pass.initial.evaluate s ⟨0, 0⟩).2.memo ≠ (Recursion.evaluate s .initial ⟨0, 0⟩).2.1.memo := by
  intro s heq
  have hwalked : (Pass.initial.evaluate s ⟨0, 0⟩).2.memo.contains ⟨1, 0⟩ = true := by
    decide +kernel
  have hcalled : (Recursion.evaluate s .initial ⟨0, 0⟩).2.1.memo.contains ⟨1, 0⟩ = false := by
    decide +kernel
  rw [heq, hcalled] at hwalked
  cases hwalked

end FormulaSheet
