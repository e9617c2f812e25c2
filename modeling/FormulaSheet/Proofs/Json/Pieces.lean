/-
What a written text of JSON is to the reader.

The writer puts a text together from strings, marks and blanks, and each of
these ends by itself: whatever comes after a closing quote, a brace or a blank is
a new token. So a piece of such a text has tokens of its own wherever it stands
(`Splits`), and pieces put side by side have their tokens side by side. Likewise
a list of tokens that is a value is that value in whatever arrays and objects it
stands (`IsValue`).

A string splits off because of what one escaped character does to the reader
(`partsOnto?_escape`): it is read as that character, and the reading goes on
behind it.
-/
import FormulaSheet.Json.Reader

set_option autoImplicit false

namespace FormulaSheet.Json

/-! ## Strings -/

/-- The escape by a number gives back the control character. -/
theorem hexNumber?_control {c : Char} (h : c.toNat < 32) :
    Text.hexNumber? ['0', '0', Text.hexDigit (c.toNat / 16), Text.hexDigit (c.toNat % 16)]
      = some c.toNat := by
  have hzero : Text.hexValue? '0' = some 0 := rfl
  have hhigh : Text.hexValue? (Text.hexDigit (c.toNat / 16)) = some (c.toNat / 16) :=
    Text.hexValue?_hexDigit (by omega)
  have hlow : Text.hexValue? (Text.hexDigit (c.toNat % 16)) = some (c.toNat % 16) :=
    Text.hexValue?_hexDigit (by omega)
  simp only [Text.hexNumber?, List.foldl_cons, List.foldl_nil, hzero, hhigh, hlow,
    Option.some.injEq]
  omega

/-- A number outside the halves contributes the character it is. -/
theorem ofNumber_control {c : Char} (h : c.toNat < 32) : Part.ofNumber c.toNat = .char c := by
  have hhalf : (isHighHalf c.toNat || isLowHalf c.toNat) = false := by
    simp only [isHighHalf, isLowHalf, Bool.or_eq_false_iff, Bool.and_eq_false_iff,
      decide_eq_false_iff_not]
    omega
  rw [Part.ofNumber, hhalf, if_neg Bool.false_ne_true, Char.ofNat_toNat]

/-- **One character.** An escaped character is read as itself, and the reading goes on behind
it. -/
theorem partsOnto?_escape (done : List Part) (c : Char) (rest : List Char) :
    partsOnto? done (escape c ++ rest) = partsOnto? (.char c :: done) rest := by
  unfold escape
  -- the five escapes by a letter and the two by a mark
  iterate 7
    split
    · next h => subst h; simp [partsOnto?, letterEscape?]
  split
  · next h =>
    simp only [List.cons_append, List.nil_append, partsOnto?, hexNumber?_control h,
      ofNumber_control h]
  · next hquote hbackslash _ _ _ _ _ h =>
    have hplain : ¬ (c.toNat < 32 || c = '\\') = true := by simp [Nat.le_of_not_lt h, hbackslash]
    rw [List.singleton_append, partsOnto?.eq_def]
    split
    case h_5 heq =>
      cases heq
      exact if_neg hplain
    all_goals simp_all

theorem partsOnto?_flatMap_escape (done : List Part) (cs rest : List Char) :
    partsOnto? done (cs.flatMap escape ++ rest)
      = partsOnto? ((cs.map Part.char).reverse ++ done) rest := by
  induction cs generalizing done with
  | nil => rfl
  | cons c cs ih =>
    rw [List.flatMap_cons, List.append_assoc, partsOnto?_escape, ih]
    simp

/-- The rest of a written string has a part for each character, up to the closing quote. -/
theorem parts?_flatMap_escape (cs rest : List Char) :
    parts? (cs.flatMap escape ++ '"' :: rest) = some (cs.map Part.char, rest) := by
  rw [parts?, partsOnto?_flatMap_escape]
  simp [partsOnto?]

theorem textOnto?_map_char (done cs : List Char) :
    textOnto? done (cs.map Part.char) = some (done.reverse ++ cs) := by
  induction cs generalizing done with
  | nil => simp [textOnto?]
  | cons c cs ih =>
    rw [List.map_cons, textOnto?, ih]
    simp

theorem textOfParts?_map_char (cs : List Char) : textOfParts? (cs.map Part.char) = some cs :=
  textOnto?_map_char [] cs

/-! ## Tokens -/

/-- The tokens of `cs` are `ts`, wherever the text stands. -/
def Splits (cs : List Char) (ts : List Token) : Prop :=
  ∀ (done : List Token) (rest : List Char),
    tokensOnto? done (cs ++ rest) = tokensOnto? (ts.reverse ++ done) rest

theorem Splits.nil : Splits [] [] :=
  fun _ _ => rfl

theorem Splits.append {cs cs' : List Char} {ts ts' : List Token} (h : Splits cs ts)
    (h' : Splits cs' ts') : Splits (cs ++ cs') (ts ++ ts') := fun done rest => by
  rw [List.append_assoc, h, h', List.reverse_append, List.append_assoc]

/-- A text that splits by itself has its tokens. -/
theorem Splits.tokens? {cs : List Char} {ts : List Token} (h : Splits cs ts) :
    tokens? cs = some ts := by
  have := h [] []
  rw [List.append_nil, List.append_nil] at this
  rw [Json.tokens?, this]
  simp [tokensOnto?]

theorem splits_space {c : Char} (h : isSpace c = true) : Splits [c] [] := fun done rest => by
  rw [List.singleton_append, tokensOnto?, if_pos h]
  rfl

/-- A character that is no blank and begins a token is cut off with its token. -/
theorem tokensOnto?_of_token? {done : List Token} {c : Char} {cs rest : List Char} {t : Token}
    (hspace : isSpace c = false) (ht : token? (c :: cs) = some (t, rest)) :
    tokensOnto? done (c :: cs) = tokensOnto? (t :: done) rest := by
  rw [tokensOnto?, if_neg (by simp [hspace])]
  split
  · next h => simp [ht] at h
  · next h =>
    simp only [ht, Option.some.injEq, Prod.mk.injEq] at h
    rw [h.1, h.2]

theorem splits_mark {c : Char} {t : Token} (hspace : isSpace c = false) (ht : mark? c = some t) :
    Splits [c] [t] := fun done rest => by
  rw [List.singleton_append, tokensOnto?_of_token? hspace
    (show token? (c :: rest) = some (t, rest) by simp only [token?, ht])]
  rfl

/-- The mark that a character is; a blank is none. -/
def separator? (c : Char) : Option Token :=
  if isSpace c then none else mark? c

/-- A text of blanks and marks has its marks as tokens. -/
theorem splits_separators {cs : List Char} {ts : List Token}
    (h : cs.all (fun c => isSpace c || (mark? c).isSome) = true)
    (hts : cs.filterMap separator? = ts) : Splits cs ts := by
  subst hts
  induction cs with
  | nil => exact Splits.nil
  | cons c cs ih =>
    simp only [List.all_cons, Bool.and_eq_true] at h
    have htail := ih h.2
    by_cases hspace : isSpace c = true
    · rw [List.filterMap_cons_none (by rw [separator?, if_pos hspace])]
      exact (splits_space hspace).append htail
    · obtain ⟨t, ht⟩ := Option.isSome_iff_exists.mp
        ((Bool.or_eq_true_iff.mp h.1).resolve_left hspace)
      rw [List.filterMap_cons_some (by rw [separator?, if_neg hspace, ht])]
      exact (splits_mark (Bool.eq_false_iff.mpr hspace) ht).append htail

/-- A written string is one token and has its text. -/
theorem splits_quote (cs : List Char) : Splits (quote cs) [.string (some cs)] := fun done rest => by
  have ht : token? ('"' :: (cs.flatMap escape ++ '"' :: rest))
      = some (.string (some cs), rest) := by
    have hmark : mark? '"' = none := rfl
    simp only [token?, hmark, if_pos, parts?_flatMap_escape, Option.map_some,
      textOfParts?_map_char]
  rw [quote, List.cons_append, List.cons_append, List.append_assoc, List.singleton_append,
    tokensOnto?_of_token? rfl ht]
  rfl

/-- Texts joined by a text between them have their tokens joined by its tokens. -/
theorem Splits.intercalate {ι : Type} {sep : List Char} {between : List Token}
    (hsep : Splits sep between) {f : ι → List Char} {g : ι → List Token}
    (h : ∀ i, Splits (f i) (g i)) (is : List ι) :
    Splits (sep.intercalate (is.map f)) (between.intercalate (is.map g)) := by
  induction is with
  | nil => exact Splits.nil
  | cons i is ih =>
    cases is with
    | nil => simpa [List.intercalate] using h i
    | cons j js =>
      rw [List.map_cons, List.map_cons, List.map_cons, List.map_cons, List.intercalate_cons_cons,
        List.intercalate_cons_cons, List.append_assoc, List.append_assoc]
      exact (h i).append (hsep.append ih)

/-! ## Values -/

/-- The tokens `ts` are the value `v`, in whatever arrays and objects they stand. -/
def IsValue (ts : List Token) (v : Json) : Prop :=
  ∀ outer : List Container,
    (State.valueDue outer).run? ts = some (State.complete v outer)

/-- Tokens that are a value by themselves are read as it. -/
theorem IsValue.ofTokens? {ts : List Token} {v : Json} (h : IsValue ts v) :
    ofTokens? ts = some v := by
  rw [Json.ofTokens?, h []]
  rfl

theorem isValue_string (text? : Option (List Char)) : IsValue [.string text?] (.string text?) :=
  fun _ => rfl

/-- The tokens of a field: its name, a colon and the tokens of its value. -/
def fieldTokens (name : Option (List Char)) (ts : List Token) : List Token :=
  .string name :: .colon :: ts

/-- The tokens of an object, given those of its fields. -/
def objectTokens (fields : List (List Token)) : List Token :=
  .openBrace :: [Token.comma].intercalate fields ++ [.closeBrace]

/-- A field is read into its object, the first one as well as those behind a comma. -/
theorem run?_fieldTokens {name : Option (List Char)} {ts : List Token} {v : Json}
    (h : IsValue ts v) (fields : List (Option (List Char) × Json)) (outer : List Container) :
    (State.nameDue fields outer).run? (fieldTokens name ts)
      = some (.objectNext ((name, v) :: fields) outer) :=
  h (.object fields name :: outer)

theorem run?_fields {ι : Type} {name : ι → Option (List Char)} {tokens : ι → List Token}
    {value : ι → Json} (h : ∀ i, IsValue (tokens i) (value i)) (i : ι) (is : List ι)
    (fields : List (Option (List Char) × Json)) (outer : List Container) :
    (State.nameDue fields outer).run?
        ([Token.comma].intercalate ((i :: is).map fun i => fieldTokens (name i) (tokens i)))
      = some (.objectNext (((i :: is).map fun i => (name i, value i)).reverse ++ fields)
        outer) := by
  induction is generalizing i fields with
  | nil => simpa [List.intercalate] using run?_fieldTokens (h i) fields outer
  | cons j js ih =>
    rw [List.map_cons, List.map_cons, List.intercalate_cons_cons, List.append_assoc,
      State.run?_append, run?_fieldTokens (h i)]
    -- the comma makes the next name due
    have hcomma : ∀ ts, (State.objectNext ((name i, value i) :: fields) outer).run?
        ([Token.comma] ++ ts) = (State.nameDue ((name i, value i) :: fields) outer).run? ts :=
      fun _ => rfl
    rw [Option.bind_some, hcomma, ← List.map_cons (f := fun i => fieldTokens (name i) (tokens i)),
      ih j]
    simp

/-- **One object.** Fields in braces with commas between them are the object that has them in
order. -/
theorem isValue_object {ι : Type} (name : ι → Option (List Char)) {tokens : ι → List Token}
    {value : ι → Json} (h : ∀ i, IsValue (tokens i) (value i)) (is : List ι) :
    IsValue (objectTokens (is.map fun i => fieldTokens (name i) (tokens i)))
      (.object (is.map fun i => (name i, value i))) := fun outer => by
  cases is with
  | nil => rfl
  | cons i is =>
    -- after the brace only a name may come, so it is due as it is after a comma
    have hstart : (State.objectStart outer).run?
          ([Token.comma].intercalate ((i :: is).map fun i => fieldTokens (name i) (tokens i)))
        = (State.nameDue [] outer).run?
          ([Token.comma].intercalate ((i :: is).map fun i => fieldTokens (name i) (tokens i))) := by
      cases is <;> rfl
    have hopen : ∀ ts, (State.valueDue outer).run? (.openBrace :: ts)
        = (State.objectStart outer).run? ts := fun _ => rfl
    rw [objectTokens, List.cons_append, hopen, State.run?_append, hstart, run?_fields h]
    simp [State.run?, State.step?]

end FormulaSheet.Json
