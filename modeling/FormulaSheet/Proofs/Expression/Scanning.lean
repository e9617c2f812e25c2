/-
Where the tokens of a text stand.

What stands at a place in a text is said here without a splitter. There are six
characters that are tokens, four operators and two parentheses (`marks`). A run of
digits and points that goes on neither before it nor behind it is a token as a
whole, if it has a digit and at most one point, and then it is the float nearest to
what is written. And there are two ways in which a text can offend: by such a run
that is no number, and by a character that is of no kind at all.

The splitter goes from left to right. What it knows on the way is that no run goes
across the place where it is, that it has listed the tokens that stand before this
place, and that nothing offends there (`Scanned`). Each of its steps keeps that
(`Scanned.pass`, `Scanned.take`), so where it stops is the first place that offends,
and if it does not stop it has listed all tokens (`Scanned.answers`).
-/
import FormulaSheet.Proofs.Expression.Splitting
import FormulaSheet.Proofs.Formula.Filling
import FormulaSheet.Proofs.Number.Longest

set_option autoImplicit false

namespace FormulaSheet.Expression

open Formula (InAlphabet)
open Number (toNearest)
open Numeral (MagnitudeForm)

/-! ## What stands at a place -/

/-- A run of digits and points that stands at a place and goes on neither before nor behind. -/
inductive RunAt (cs : List Char) (n : Nat) (run : List Char) : Prop
  | intro {before after : List Char} (hsplit : cs = before ++ (run ++ after))
      (hlength : before.length = n) (hne : run ≠ []) (hall : ∀ c ∈ run, isNumeric c = true)
      (hbefore : ∀ c ∈ before.getLast?, isNumeric c = false)
      (hafter : ∀ c ∈ after.head?, isNumeric c = false)

/-- The characters that are tokens, each with its token. -/
def marks : List (Char × Token) :=
  [('+', .plus), ('-', .minus), ('*', .times), ('/', .divide), ('(', .opening), (')', .closing)]

/-- A token that stands at a place. The number of a run is the float nearest to it. -/
inductive TokenAt (cs : List Char) (n : Nat) : Token → Prop
  | mark {c : Char} {t : Token} (hc : cs[n]? = some c) (ht : (c, t) ∈ marks) : TokenAt cs n t
  | number {run : List Char} {d : Decimal} (hrun : RunAt cs n run) (hform : MagnitudeForm run d) :
      TokenAt cs n (.number (toNearest .positive d.quantity))

/-- A run of digits and points is no number: it has no digit, or more than one point. -/
def Malformed (run : List Char) : Prop :=
  (∀ c ∈ run, c.isDigit = false) ∨ 1 < run.count '.'

/-- What offends at a place: a character that is neither digit, point, operator, parenthesis nor
blank, with the number of bytes before it, or a run that is no number. -/
inductive ProblemAt (cs : List Char) (n : Nat) : Problem → Prop
  | character {c : Char} (hc : cs[n]? = some c) (hunknown : ¬ InAlphabet c) :
      ProblemAt cs n (.character c (String.ofList (cs.take n)).utf8ByteSize)
  | numeral {run : List Char} (hrun : RunAt cs n run) (hfault : Malformed run) :
      ProblemAt cs n (.numeral run)

/-- The tokens that stand in a text, from left to right and each once. -/
def InOrder (cs : List Char) (ts : List Token) : Prop :=
  ∃ places : List (Nat × Token), ts = places.map Prod.snd ∧
    places.Pairwise (fun p q => p.1 < q.1) ∧ ∀ n t, (n, t) ∈ places ↔ TokenAt cs n t

/-- What offends first in a text. -/
def FirstProblem (cs : List Char) (e : Problem) : Prop :=
  ∃ n, ProblemAt cs n e ∧ ∀ m e', ProblemAt cs m e' → n ≤ m

/-- The splitter knows these characters and no others. -/
theorem mem_marks_iff {c : Char} {t : Token} : (c, t) ∈ marks ↔ Token.ofChar? c = some t := by
  constructor
  · intro h
    simp only [marks, List.mem_cons, Prod.mk.injEq, List.not_mem_nil, or_false] at h
    obtain ⟨rfl, rfl⟩ | ⟨rfl, rfl⟩ | ⟨rfl, rfl⟩ | ⟨rfl, rfl⟩ | ⟨rfl, rfl⟩ | ⟨rfl, rfl⟩ := h
    all_goals rfl
  · intro h
    have hmem := Token.mem_of_ofChar? h
    simp only [List.mem_cons, List.not_mem_nil, or_false] at hmem
    obtain rfl | rfl | rfl | rfl | rfl | rfl := hmem
    all_goals
      obtain rfl := Option.some.inj h
      simp [marks]

/-! ## Runs that are numbers -/

section Numbers

variable {run : List Char} {d : Decimal} {x : Float}

theorem eq_point_of_isNumeric {c : Char} (h : isNumeric c = true) (hc : ¬ c.isDigit = true) :
    c = '.' :=
  eq_of_beq ((Bool.or_eq_true_iff.mp h).resolve_left hc)

theorem isDigit_of_ne_point {c : Char} (h : isNumeric c = true) (hc : c ≠ '.') :
    c.isDigit = true := by
  by_contra hdigit
  exact hc (eq_point_of_isNumeric h hdigit)

theorem count_point_eq_zero (h : ∀ c ∈ run, c.isDigit = true) : run.count '.' = 0 := by
  rw [List.count_eq_zero]
  intro hpoint
  cases h '.' hpoint

/-- What is written as a magnitude has a digit and at most one point. -/
theorem not_malformed_of_form (h : MagnitudeForm run d) : ¬ Malformed run := by
  cases h with
  | whole hne hdigits =>
    obtain ⟨c, hc⟩ := List.exists_mem_of_ne_nil _ hne
    rintro (hnone | hpoints)
    · cases (hdigits c hc).symm.trans (hnone c hc)
    · rw [count_point_eq_zero hdigits] at hpoints
      omega
  | @pointed digits fraction hne hdigits =>
    obtain ⟨c, hc⟩ := List.exists_mem_of_ne_nil _ hne
    rintro (hnone | hpoints)
    · have hmem : c ∈ digits ++ '.' :: fraction := by
        rw [List.mem_append] at hc ⊢
        exact hc.imp_right (List.mem_cons_of_mem _)
      cases (hdigits c hc).symm.trans (hnone c hmem)
    · have hbefore := count_point_eq_zero fun c hc => hdigits c (List.mem_append_left _ hc)
      have hbehind := count_point_eq_zero fun c hc => hdigits c (List.mem_append_right _ hc)
      rw [List.count_append, List.count_cons_self, hbefore, hbehind] at hpoints
      omega

/-- A run with a digit and at most one point is written as a magnitude. -/
theorem exists_form_of_not_malformed (hall : ∀ c ∈ run, isNumeric c = true)
    (h : ¬ Malformed run) : ∃ d, MagnitudeForm run d := by
  rw [Malformed, not_or, not_lt] at h
  obtain ⟨hdigit, hpoints⟩ := h
  push Not at hdigit
  obtain ⟨c, hc, hdigit⟩ := hdigit
  by_cases hpoint : '.' ∈ run
  · obtain ⟨digits, fraction, rfl⟩ := List.append_of_mem hpoint
    rw [List.count_append, List.count_cons_self] at hpoints
    have hbefore : '.' ∉ digits := List.count_eq_zero.mp (by omega)
    have hbehind : '.' ∉ fraction := List.count_eq_zero.mp (by omega)
    have hdigits : ∀ c ∈ digits ++ fraction, c.isDigit = true := by
      intro c hc
      rcases List.mem_append.mp hc with hc | hc
      · exact isDigit_of_ne_point (hall c (List.mem_append_left _ hc))
          fun heq => hbefore (heq ▸ hc)
      · exact isDigit_of_ne_point (hall c (List.mem_append_right _ (List.mem_cons_of_mem _ hc)))
          fun heq => hbehind (heq ▸ hc)
    refine ⟨_, .pointed (fun hnil => ?_) hdigits⟩
    -- there is a digit somewhere, and it is not the point
    obtain ⟨rfl, rfl⟩ := List.append_eq_nil_iff.mp hnil
    obtain rfl := List.mem_singleton.mp hc
    exact hdigit rfl
  · exact ⟨_, .whole (List.ne_nil_of_mem hc) fun c hc =>
      isDigit_of_ne_point (hall c hc) fun heq => hpoint (heq ▸ hc)⟩

/-- **A run is read as the float nearest to what is written.** -/
theorem number?_of_form (h : MagnitudeForm run d) :
    number? run = some (toNearest .positive d.quantity) := by
  have hread := Numeral.magnitude?_form h
  simp only [number?, hread]
  exact congrArg some (Number.toSigned_eq_toNearest .positive d)

theorem malformed_of_number?_eq_none (hall : ∀ c ∈ run, isNumeric c = true)
    (h : number? run = none) : Malformed run := by
  by_contra hform
  obtain ⟨d, hd⟩ := exists_form_of_not_malformed hall hform
  rw [number?_of_form hd] at h
  cases h

theorem exists_form_of_number? (h : number? run = some x) :
    ∃ d, MagnitudeForm run d ∧ x = toNearest .positive d.quantity := by
  have hread := h
  unfold number? at hread
  split at hread
  · next d hmagnitude =>
    obtain ⟨m, hsplit, hform⟩ := Numeral.exists_form_of_magnitude? hmagnitude
    rw [List.append_nil] at hsplit
    subst hsplit
    exact ⟨d, hform, Option.some.inj (h.symm.trans (number?_of_form hform))⟩
  · cases hread

end Numbers

/-! ## Places -/

section Places

variable {cs run run' : List Char} {n k : Nat} {c : Char} {t t' : Token} {e e' : Problem}
  {x : Float}

theorem RunAt.getElem? (h : RunAt cs n run) (hlow : n ≤ k) (hhigh : k < n + run.length) :
    ∃ c, cs[k]? = some c ∧ isNumeric c = true := by
  obtain ⟨hsplit, hlength, -, hall, -, -⟩ := h
  have hk : k - n < run.length := by omega
  refine ⟨run[k - n], ?_, hall _ (List.getElem_mem hk)⟩
  rw [hsplit, List.getElem?_append_right (by omega), hlength,
    List.getElem?_append_left hk, List.getElem?_eq_getElem hk]

/-- A run begins with one of its characters. -/
theorem RunAt.exists_head (h : RunAt cs n run) : ∃ c, cs[n]? = some c ∧ isNumeric c = true := by
  have hne : run ≠ [] := by obtain ⟨-, -, hne, -, -, -⟩ := h; exact hne
  exact h.getElem? le_rfl (Nat.lt_add_of_pos_right (List.length_pos_iff.mpr hne))

theorem RunAt.isNumeric_head (h : RunAt cs n run) (hc : cs[n]? = some c) :
    isNumeric c = true := by
  obtain ⟨d, hd, hnumeric⟩ := h.exists_head
  rwa [Option.some.inj (hc.symm.trans hd)]

/-- No run begins right behind a digit or a point. -/
theorem RunAt.not_isNumeric_before (h : RunAt cs (n + 1) run) (hc : cs[n]? = some c) :
    isNumeric c = false := by
  obtain ⟨hsplit, hlength, -, -, hbefore, -⟩ := h
  refine hbefore c ?_
  rw [List.getLast?_eq_getElem?, hlength, Nat.add_sub_cancel, Option.mem_def, ← hc, hsplit,
    List.getElem?_append_left (by omega)]

/-- One run begins at a place. -/
theorem RunAt.unique (h : RunAt cs n run) (h' : RunAt cs n run') : run = run' := by
  obtain ⟨hsplit, hlength, -, hall, -, hafter⟩ := h
  obtain ⟨hsplit', hlength', -, hall', -, hafter'⟩ := h'
  obtain ⟨-, hrest⟩ := List.append_inj (hsplit.symm.trans hsplit') (hlength.trans hlength'.symm)
  rw [← (Formula.takeWhile_run_append hall hafter).1, hrest,
    (Formula.takeWhile_run_append hall' hafter').1]

/-- A token begins with a character that is one, or with a run. -/
theorem TokenAt.begins (h : TokenAt cs n t) (hc : cs[n]? = some c) :
    Token.ofChar? c = some t ∨ isNumeric c = true ∧ ∃ run, RunAt cs n run := by
  cases h with
  | mark hc' ht => exact .inl (Option.some.inj (hc.symm.trans hc') ▸ mem_marks_iff.mp ht)
  | number hrun _ => exact .inr ⟨hrun.isNumeric_head hc, _, hrun⟩

/-- What offends begins with a character that is of no kind, or with a run. -/
theorem ProblemAt.begins (h : ProblemAt cs n e) (hc : cs[n]? = some c) :
    ¬ InAlphabet c ∨ isNumeric c = true ∧ ∃ run, RunAt cs n run := by
  cases h with
  | character hc' hunknown => exact .inl (Option.some.inj (hc.symm.trans hc') ▸ hunknown)
  | numeral hrun _ => exact .inr ⟨hrun.isNumeric_head hc, _, hrun⟩

theorem lt_length_of_getElem? (hc : cs[n]? = some c) : n < cs.length :=
  (List.getElem?_eq_some_iff.mp hc).1

theorem RunAt.lt_length (h : RunAt cs n run) : n < cs.length := by
  obtain ⟨c, hc, -⟩ := h.exists_head
  exact lt_length_of_getElem? hc

theorem TokenAt.lt_length (h : TokenAt cs n t) : n < cs.length := by
  cases h with
  | mark hc _ => exact lt_length_of_getElem? hc
  | number hrun _ => exact hrun.lt_length

theorem ProblemAt.lt_length (h : ProblemAt cs n e) : n < cs.length := by
  cases h with
  | character hc _ => exact lt_length_of_getElem? hc
  | numeral hrun _ => exact hrun.lt_length

/-- A character that is of no kind is in no run. -/
theorem RunAt.inAlphabet_head (h : RunAt cs n run) (hc : cs[n]? = some c) : InAlphabet c :=
  Formula.inAlphabet_of_isNumeric (h.isNumeric_head hc)

/-- One thing at most offends at a place. -/
theorem ProblemAt.unique (h : ProblemAt cs n e) (h' : ProblemAt cs n e') : e = e' := by
  cases h with
  | character hc hunknown =>
    cases h' with
    | character hc' _ => rw [Option.some.inj (hc.symm.trans hc')]
    | numeral hrun _ => exact absurd (hrun.inAlphabet_head hc) hunknown
  | numeral hrun _ =>
    cases h' with
    | character hc hunknown => exact absurd (hrun.inAlphabet_head hc) hunknown
    | numeral hrun' _ => rw [hrun.unique hrun']

theorem FirstProblem.unique (h : FirstProblem cs e) (h' : FirstProblem cs e') : e = e' := by
  obtain ⟨n, hn, hfirst⟩ := h
  obtain ⟨m, hm, hfirst'⟩ := h'
  obtain rfl : n = m := (hfirst m e' hm).antisymm (hfirst' n e hn)
  exact hn.unique hm

/-- Two lists of the tokens in order are the same list. -/
theorem InOrder.unique {ts ts' : List Token} (h : InOrder cs ts) (h' : InOrder cs ts') :
    ts = ts' := by
  obtain ⟨places, rfl, hsorted, hmem⟩ := h
  obtain ⟨places', rfl, hsorted', hmem'⟩ := h'
  have hsame : ∀ p, p ∈ places ↔ p ∈ places' := fun p => (hmem p.1 p.2).trans (hmem' p.1 p.2).symm
  have hne : ∀ {p q : Nat × Token}, p.1 < q.1 → p ≠ q := fun hlt heq => hlt.ne (heq ▸ rfl)
  -- the same members, none twice, and both sorted
  have hperm := (List.perm_ext_iff_of_nodup (hsorted.imp hne) (hsorted'.imp hne)).mpr hsame
  rw [hperm.eq_of_pairwise (fun p q _ _ hpq hqp => absurd hpq hqp.asymm) hsorted hsorted']

/-! ## What begins at a place -/

/-- Neither a token nor a problem begins at a place. -/
def Bare (cs : List Char) (n : Nat) : Prop :=
  (∀ t, ¬ TokenAt cs n t) ∧ ∀ e, ¬ ProblemAt cs n e

/-- At a place one token begins, and no problem. -/
def Sole (cs : List Char) (n : Nat) (t : Token) : Prop :=
  (∀ t', TokenAt cs n t' ↔ t' = t) ∧ ∀ e, ¬ ProblemAt cs n e

/-- The characters that are tokens begin no run and are not blank. -/
theorem class_of_ofChar? (h : Token.ofChar? c = some t) :
    isNumeric c = false ∧ Text.isBlank c = false ∧ InAlphabet c := by
  have hmem := Token.mem_of_ofChar? h
  simp only [List.mem_cons, List.not_mem_nil, or_false] at hmem
  obtain rfl | rfl | rfl | rfl | rfl | rfl := hmem <;> exact ⟨by decide, by decide, by decide⟩

/-- A character that begins no token and is not blank is of no kind. -/
theorem not_inAlphabet (hblank : ¬ Text.isBlank c = true) (hnumeric : ¬ isNumeric c = true)
    (hmark : Token.ofChar? c = none) : ¬ InAlphabet c := by
  rintro (hdigit | hmem | hblank')
  · exact hnumeric (isNumeric_of_isDigit hdigit)
  · simp only [List.mem_cons, List.not_mem_nil, or_false] at hmem
    obtain rfl | rfl | rfl | rfl | rfl | rfl | rfl := hmem
    all_goals first | exact hnumeric (by decide) | cases hmark
  · exact hblank hblank'

/-- Nothing begins with a known character that is no token, where no run begins. -/
theorem bare_of_no_run (hc : cs[n]? = some c) (hmark : ∀ t, Token.ofChar? c ≠ some t)
    (hknown : InAlphabet c) (hnone : ¬ (isNumeric c = true ∧ ∃ run, RunAt cs n run)) :
    Bare cs n :=
  ⟨fun t ht => (ht.begins hc).elim (hmark t) hnone,
    fun _ he => (he.begins hc).elim (fun hunknown => hunknown hknown) hnone⟩

theorem bare_of_blank (hc : cs[n]? = some c) (hblank : Text.isBlank c = true) : Bare cs n := by
  refine bare_of_no_run hc (fun t ht => ?_) (.inr (.inr hblank)) fun hrun => ?_
  · cases hblank.symm.trans (class_of_ofChar? ht).2.1
  · cases hrun.1.symm.trans (not_isNumeric_of_isBlank hblank)

/-- Within a run nothing begins. -/
theorem RunAt.bare (h : RunAt cs n run) (hlow : n < k) (hhigh : k < n + run.length) :
    Bare cs k := by
  obtain ⟨j, rfl⟩ : ∃ j, k = j + 1 := ⟨k - 1, by omega⟩
  obtain ⟨c, hc, hnumeric⟩ := h.getElem? (k := j + 1) hlow.le hhigh
  obtain ⟨d, hd, hnumeric'⟩ := h.getElem? (k := j) (by omega) (by omega)
  refine bare_of_no_run hc (fun t ht => ?_) (Formula.inAlphabet_of_isNumeric hnumeric) ?_
  · cases hnumeric.symm.trans (class_of_ofChar? ht).1
  · rintro ⟨-, run', hrun'⟩
    cases hnumeric'.symm.trans (hrun'.not_isNumeric_before hd)

theorem sole_of_mark (hc : cs[n]? = some c) (ht : Token.ofChar? c = some t) : Sole cs n t := by
  obtain ⟨hnumeric, -, hknown⟩ := class_of_ofChar? ht
  refine ⟨fun t' => ⟨fun ht' => ?_, ?_⟩, fun e he => ?_⟩
  · rcases ht'.begins hc with hmark | hrun
    · exact Option.some.inj (hmark.symm.trans ht)
    · cases hnumeric.symm.trans hrun.1
  · rintro rfl
    exact .mark hc (mem_marks_iff.mpr ht)
  · rcases he.begins hc with hunknown | hrun
    · exact hunknown hknown
    · cases hnumeric.symm.trans hrun.1

theorem RunAt.sole (h : RunAt cs n run) (hx : number? run = some x) : Sole cs n (.number x) := by
  obtain ⟨d, hform, rfl⟩ := exists_form_of_number? hx
  refine ⟨fun t' => ⟨fun ht' => ?_, ?_⟩, fun e he => ?_⟩
  · cases ht' with
    | mark hc ht =>
      cases (h.isNumeric_head hc).symm.trans (class_of_ofChar? (mem_marks_iff.mp ht)).1
    | number hrun' hform' =>
      obtain rfl := h.unique hrun'
      rw [Option.some.inj ((number?_of_form hform').symm.trans hx)]
  · rintro rfl
    exact .number h hform
  · cases he with
    | character hc hunknown => exact hunknown (h.inAlphabet_head hc)
    | numeral hrun' hfault =>
      obtain rfl := h.unique hrun'
      exact not_malformed_of_form hform hfault

end Places

/-! ## Lists of tokens on the way -/

section Lists

variable {cs : List Char} {n m : Nat} {t : Token} {ts : List Token}

/-- The tokens that begin before a place, in order. -/
def ListedTo (cs : List Char) (limit : Nat) (ts : List Token) : Prop :=
  ∃ places : List (Nat × Token), ts = places.map Prod.snd ∧
    places.Pairwise (fun p q => p.1 < q.1) ∧
    ∀ n t, (n, t) ∈ places ↔ TokenAt cs n t ∧ n < limit

theorem listedTo_zero (cs : List Char) : ListedTo cs 0 [] :=
  ⟨[], rfl, .nil, fun n t => by simp⟩

/-- Where nothing begins the list stays as it is. -/
theorem ListedTo.skip (h : ListedTo cs n ts) (hle : n ≤ m)
    (hbare : ∀ k, n ≤ k → k < m → Bare cs k) : ListedTo cs m ts := by
  obtain ⟨places, rfl, hsorted, hmem⟩ := h
  refine ⟨places, rfl, hsorted, fun k t => (hmem k t).trans ?_⟩
  refine and_congr_right fun ht => ⟨fun hlt => hlt.trans_le hle, fun hlt => ?_⟩
  by_contra hge
  exact (hbare k (not_lt.mp hge) hlt).1 t ht

/-- Where one token begins it is added at the end. -/
theorem ListedTo.add (h : ListedTo cs n ts) (hsole : Sole cs n t) :
    ListedTo cs (n + 1) (ts ++ [t]) := by
  obtain ⟨places, rfl, hsorted, hmem⟩ := h
  refine ⟨places ++ [(n, t)], by rw [List.map_append]; rfl, ?_, fun k t' => ?_⟩
  · rw [List.pairwise_append]
    refine ⟨hsorted, List.pairwise_singleton _ _, fun p hp q hq => ?_⟩
    obtain rfl := List.mem_singleton.mp hq
    exact ((hmem p.1 p.2).mp hp).2
  · rw [List.mem_append, hmem, List.mem_singleton, Prod.mk.injEq]
    constructor
    · rintro (⟨ht', hlt⟩ | ⟨rfl, rfl⟩)
      · exact ⟨ht', hlt.trans (Nat.lt_succ_self n)⟩
      · exact ⟨(hsole.1 _).mpr rfl, Nat.lt_succ_self _⟩
    · rintro ⟨ht', hlt⟩
      rcases Nat.lt_succ_iff_lt_or_eq.mp hlt with hlt | rfl
      · exact .inl ⟨ht', hlt⟩
      · exact .inr ⟨rfl, (hsole.1 t').mp ht'⟩

/-- At the end of the text the list is complete. -/
theorem ListedTo.inOrder (h : ListedTo cs cs.length ts) : InOrder cs ts := by
  obtain ⟨places, rfl, hsorted, hmem⟩ := h
  exact ⟨places, rfl, hsorted, fun n t => (hmem n t).trans (and_iff_left_of_imp TokenAt.lt_length)⟩

end Lists

/-! ## The splitter on its way -/

/-- No run of digits and points goes across the place between two texts. -/
def Apart (before after : List Char) : Prop :=
  (∀ c ∈ before.getLast?, isNumeric c = false) ∨ ∀ c ∈ after.head?, isNumeric c = false

/-- What the splitter knows when `rest` is before it: no run goes across the place, the tokens that
begin before the place are listed, and nothing offends there. -/
structure Scanned (cs before : List Char) (done : List Token) (offset : Nat) (rest : List Char) :
    Prop where
  split : cs = before ++ rest
  apart : Apart before rest
  bytes : offset = (String.ofList before).utf8ByteSize
  listed : ListedTo cs before.length done.reverse
  clear : ∀ n e, ProblemAt cs n e → before.length ≤ n

/-- What the splitter should answer: the first problem, or all tokens if there is no problem. -/
def Answers (cs : List Char) : Except Problem (List Token) → Prop
  | .error e => FirstProblem cs e
  | .ok ts => InOrder cs ts ∧ ∀ n e, ¬ ProblemAt cs n e

namespace Scanned

variable {cs before run rest : List Char} {done : List Token} {offset : Nat} {c : Char}
  {t : Token} {x : Float}

theorem start (cs : List Char) : Scanned cs [] [] 0 cs where
  split := rfl
  apart := .inl nofun
  bytes := rfl
  listed := listedTo_zero cs
  clear _ _ _ := Nat.zero_le _

theorem getElem?_length (h : Scanned cs before done offset (c :: rest)) :
    cs[before.length]? = some c := by
  rw [h.split, List.getElem?_append_right le_rfl, Nat.sub_self]
  rfl

theorem bytes_append (h : Scanned cs before done offset rest) (part : List Char) :
    offset + (String.ofList part).utf8ByteSize
      = (String.ofList (before ++ part)).utf8ByteSize := by
  rw [String.ofList_append, String.utf8ByteSize_append, h.bytes]

/-- Nothing offends up to a later place if nothing does in between. -/
theorem clear_to (h : Scanned cs before done offset rest) {m : Nat}
    (hbetween : ∀ k, before.length ≤ k → k < m → ∀ e, ¬ ProblemAt cs k e) (n : Nat) (e : Problem)
    (he : ProblemAt cs n e) : m ≤ n := by
  by_contra hlt
  exact hbetween n (h.clear n e he) (not_le.mp hlt) e he

/-- A blank is passed over. -/
theorem pass (h : Scanned cs before done offset (c :: rest)) (hblank : Text.isBlank c = true) :
    Scanned cs (before ++ [c]) done (offset + c.utf8Size) rest := by
  have hbare : ∀ k, before.length ≤ k → k < (before ++ [c]).length → Bare cs k := by
    intro k hlow hhigh
    rw [List.length_append, List.length_singleton] at hhigh
    obtain rfl : k = before.length := by omega
    exact bare_of_blank h.getElem?_length hblank
  exact {
    split := by rw [h.split, List.append_assoc]; rfl
    apart := .inl (by simp [not_isNumeric_of_isBlank hblank])
    bytes := by rw [← String.utf8ByteSize_singleton]; exact h.bytes_append [c]
    listed := h.listed.skip (by simp) hbare
    clear := h.clear_to fun k hlow hhigh => (hbare k hlow hhigh).2 }

/-- An operator or a parenthesis is listed. -/
theorem take (h : Scanned cs before done offset (c :: rest)) (ht : Token.ofChar? c = some t) :
    Scanned cs (before ++ [c]) (t :: done) (offset + c.utf8Size) rest := by
  have hsole : Sole cs before.length t := sole_of_mark h.getElem?_length ht
  have hlength : (before ++ [c]).length = before.length + 1 := by simp
  exact {
    split := by rw [h.split, List.append_assoc]; rfl
    apart := .inl (by simp [(class_of_ofChar? ht).1])
    bytes := by rw [← String.utf8ByteSize_singleton]; exact h.bytes_append [c]
    listed := by
      rw [hlength, List.reverse_cons]
      exact h.listed.add hsole
    clear := h.clear_to fun k hlow hhigh => by
      obtain rfl : k = before.length := by omega
      exact hsole.2 }

/-- What stands before the splitter is a run as a whole. -/
theorem runAt (h : Scanned cs before done offset (run ++ rest)) (hne : run ≠ [])
    (hall : ∀ c ∈ run, isNumeric c = true) (hrest : ∀ c ∈ rest.head?, isNumeric c = false) :
    RunAt cs before.length run := by
  -- nothing goes on before it, since it would go across the place where the splitter is
  refine .intro h.split rfl hne hall (h.apart.resolve_right fun hhead => ?_) hrest
  obtain ⟨c, run, rfl⟩ := List.exists_cons_of_ne_nil hne
  cases (hall c List.mem_cons_self).symm.trans (hhead c rfl)

theorem utf8ByteSize_run (hall : ∀ c ∈ run, isNumeric c = true) :
    (String.ofList run).utf8ByteSize = run.length := by
  induction run with
  | nil => rfl
  | cons c run ih =>
    have hsize : c.utf8Size = 1 := by
      have hcode := toNat_of_isNumeric (hall c List.mem_cons_self)
      rw [Char.utf8Size_eq_one_iff, UInt32.le_iff_toNat_le]
      exact hcode.2.trans (by decide)
    rw [String.ofList_cons, String.utf8ByteSize_append, String.utf8ByteSize_singleton, hsize,
      ih fun d hd => hall d (List.mem_cons_of_mem c hd), List.length_cons, Nat.add_comm]

/-- A run that is a number is listed. -/
theorem takeRun (h : Scanned cs before done offset (run ++ rest)) (hne : run ≠ [])
    (hall : ∀ c ∈ run, isNumeric c = true) (hrest : ∀ c ∈ rest.head?, isNumeric c = false)
    (hx : number? run = some x) :
    Scanned cs (before ++ run) (.number x :: done) (offset + run.length) rest := by
  have hrun := h.runAt hne hall hrest
  have hsole := hrun.sole hx
  have hlength : (before ++ run).length = before.length + run.length := List.length_append
  have hpos : 0 < run.length := List.length_pos_iff.mpr hne
  exact {
    split := by rw [h.split, List.append_assoc]
    apart := .inr hrest
    bytes := by rw [← utf8ByteSize_run hall]; exact h.bytes_append run
    listed := by
      -- the token is listed with the first character of its run, and the others are passed over
      rw [hlength, List.reverse_cons]
      exact (h.listed.add hsole).skip (by omega) fun k hlow hhigh => hrun.bare hlow hhigh
    clear := h.clear_to fun k hlow hhigh => by
      rw [hlength] at hhigh
      rcases hlow.lt_or_eq with hlt | rfl
      · exact (hrun.bare hlt hhigh).2
      · exact hsole.2 }

/-- What begins with a digit or a point is a run and what is left behind it. -/
theorem cut_run (h : Scanned cs before done offset (c :: rest)) (hc : isNumeric c = true) :
    Scanned cs before done offset (c :: rest.takeWhile isNumeric ++ rest.dropWhile isNumeric) ∧
      (∀ d ∈ c :: rest.takeWhile isNumeric, isNumeric d = true) ∧
      ∀ d ∈ (rest.dropWhile isNumeric).head?, isNumeric d = false :=
  ⟨Formula.cons_eq_run_append c rest ▸ h, fun _ => Formula.isNumeric_of_mem_run hc,
    Formula.not_of_head?_dropWhile⟩

/-- **The splitter answers as it should**, from wherever it is on its way. -/
theorem answers (h : Scanned cs before done offset rest) :
    Answers cs (tokensOnto done offset rest) := by
  fun_induction tokensOnto done offset rest generalizing before with
  | case1 done offset =>
    have hend : cs = before := by rw [h.split, List.append_nil]
    have hlisted := h.listed
    rw [← hend] at hlisted
    refine ⟨hlisted.inOrder, fun n e he => ?_⟩
    have hle := h.clear n e he
    rw [← hend] at hle
    exact absurd he.lt_length hle.not_gt
  | case2 done offset c rest hblank ih => exact ih (h.pass hblank)
  | case3 done offset c rest hblank hnumeric run =>
    rename_i hx
    obtain ⟨hcut, hall, hrest⟩ := h.cut_run hnumeric
    -- the splitter stops, and nothing has offended before the place where it is
    exact ⟨before.length, .numeral (hcut.runAt (List.cons_ne_nil _ _) hall hrest)
      (malformed_of_number?_eq_none hall hx), h.clear⟩
  | case4 done offset c rest hblank hnumeric run x =>
    rename_i hx ih
    obtain ⟨hcut, hall, hrest⟩ := h.cut_run hnumeric
    exact ih (hcut.takeRun (List.cons_ne_nil _ _) hall hrest hx)
  | case5 done offset c rest hblank hnumeric hmark =>
    have htake : cs.take before.length = before := by rw [h.split, List.take_left]
    have hproblem := ProblemAt.character h.getElem?_length
      (not_inAlphabet hblank hnumeric hmark)
    rw [htake, ← h.bytes] at hproblem
    exact ⟨before.length, hproblem, h.clear⟩
  | case6 done offset c rest hblank hnumeric t ht ih => exact ih (h.take ht)

end Scanned

end FormulaSheet.Expression
