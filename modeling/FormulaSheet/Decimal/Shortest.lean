/-
The shortest decimal of a float.

A float is `m · 2 ^ q`, and that is a decimal too, only a long one. Its leading
digits, and the same digits with one more unit in the last place, are the two
neighbours of the float among the decimals with that many digits. The search
below tries one digit, then two, and so on, and stops at the first length at
which a neighbour reads back as the float; of two that do it takes the nearer.
If it runs out of lengths it is left with the exact decimal.

Nothing here measures how far a decimal may lie from the float and still read
back: the test is the reading itself. So the answer reads back because it was
seen to, and it is shortest because the lengths are tried in rising order.
-/
import FormulaSheet.Decimal.Basic

set_option autoImplicit false

namespace FormulaSheet.Decimal

/-- Which of two equally near decimals is taken. -/
inductive Tie where
  /-- The larger. -/
  | up
  /-- The one whose last digit is even. -/
  | toEven
deriving DecidableEq

/-- Whether what was cut off from `exact` takes it past the middle between `below`, its leading
digits, and the next decimal of that length. -/
def passesMiddle (tie : Tie) (exact below : Decimal) (places : Nat) : Bool :=
  let unit := Nat.pow 10 places
  let rest := exact.digits % unit
  if 2 * rest < unit then false
  else if unit < 2 * rest then true
  else match tie with
    | .up => true
    | .toEven => below.digits % 2 == 1

/-- The neighbour of `exact` that lacks its last `places` digits and reads back, if there is one;
of two, the nearer. -/
def neighbour? (tie : Tie) (readsBack : Decimal → Bool) (exact : Decimal) (places : Nat) :
    Option Decimal :=
  let below := exact.dropDigits places
  let above := below.next
  match readsBack below, readsBack above with
  | false, false => none
  | true, false => some below
  | false, true => some above
  | true, true => some (if passesMiddle tie exact below places then above else below)

/-- The first neighbour that reads back when `places` digits are left out, then one fewer, and
so on down to none. -/
def shortestWithin (tie : Tie) (readsBack : Decimal → Bool) (exact : Decimal) : Nat → Decimal
  | 0 => exact
  | places + 1 =>
    (neighbour? tie readsBack exact (places + 1)).getD
      (shortestWithin tie readsBack exact places)

/-- The shortest decimal that reads back, given the exact one. -/
def shortest (tie : Tie) (readsBack : Decimal → Bool) (exact : Decimal) : Decimal :=
  shortestWithin tie readsBack exact ((Nat.toDigits 10 exact.digits).length - 1)

/-! ## What is found reads back -/

theorem readsBack_of_neighbour? {tie : Tie} {readsBack : Decimal → Bool} {exact d : Decimal}
    {places : Nat} (h : neighbour? tie readsBack exact places = some d) : readsBack d = true := by
  simp only [neighbour?] at h
  -- the four cases of the two readings; only where both succeed is there a choice left
  split at h <;> simp_all
  split at h <;> simp_all

theorem readsBack_shortestWithin {tie : Tie} {readsBack : Decimal → Bool} {exact : Decimal}
    (h : readsBack exact = true) (places : Nat) :
    readsBack (shortestWithin tie readsBack exact places) = true := by
  induction places with
  | zero => exact h
  | succ places ih =>
    -- either a neighbour of this length was taken, or the search went on
    rw [shortestWithin]
    cases hn : neighbour? tie readsBack exact (places + 1) with
    | none => simpa using ih
    | some d => simpa using readsBack_of_neighbour? hn

/-- The shortest decimal reads back wherever the exact one does. -/
theorem readsBack_shortest {tie : Tie} {readsBack : Decimal → Bool} {exact : Decimal}
    (h : readsBack exact = true) : readsBack (shortest tie readsBack exact) = true :=
  readsBack_shortestWithin h _

end FormulaSheet.Decimal
