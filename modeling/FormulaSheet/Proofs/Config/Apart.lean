/-
No text is both a snapshot and a configuration.

A snapshot begins with a brace or a bracket, once the blanks of JSON are
skipped. No line of a configuration begins so: the blanks that may stand before
a key are fewer, and a key begins with a character of a bare key or with a
quote. What stands between is told apart by the line feeds among the blanks,
which end lines of their own; a carriage return that ends no line is no part of
any.

So a file that serves as a configuration is not the file of a sheet, and to
write the one leaves the other as it is.
-/
import FormulaSheet.Config.Basic
import FormulaSheet.Proofs.Json.Pieces
import FormulaSheet.Snapshot

set_option autoImplicit false

namespace FormulaSheet

/-! ## How a snapshot begins -/

namespace Json

/-- A text that begins with a brace or a bracket, once blanks are skipped. -/
def Opens (cs : List Char) : Prop :=
  ∃ blanks c rest, cs = blanks ++ c :: rest ∧ (∀ b ∈ blanks, isSpace b = true) ∧
    (c = '\x7b' ∨ c = '[')

theorem mark?_eq_openBrace {c : Char} (h : mark? c = some .openBrace) : c = '\x7b' := by
  unfold mark? at h
  split at h <;> first | rfl | cases h

theorem mark?_eq_openBracket {c : Char} (h : mark? c = some .openBracket) : c = '[' := by
  unfold mark? at h
  split at h <;> first | rfl | cases h

theorem not_opens_of_word? {cs rest : List Char} {t : Token} (h : word? cs = some (t, rest)) :
    t ≠ .openBrace ∧ t ≠ .openBracket := by
  unfold word? at h
  split at h
  · cases h
    exact ⟨nofun, nofun⟩
  · cases h
    exact ⟨nofun, nofun⟩
  · cases h
    exact ⟨nofun, nofun⟩
  · cases h

/-- Only a mark opens anything. -/
theorem opens_of_token? {c : Char} {cs rest : List Char} {t : Token}
    (h : token? (c :: cs) = some (t, rest)) (ht : t = .openBrace ∨ t = .openBracket) :
    c = '\x7b' ∨ c = '[' := by
  cases hmark : mark? c with
  | some mark =>
    simp only [token?, hmark, Option.some.injEq, Prod.mk.injEq] at h
    obtain ⟨rfl, -⟩ := h
    rcases ht with rfl | rfl
    · exact .inl (mark?_eq_openBrace hmark)
    · exact .inr (mark?_eq_openBracket hmark)
  | none =>
    simp only [token?, hmark] at h
    split at h
    · obtain ⟨parts, -, heq⟩ := Option.map_eq_some_iff.mp h
      obtain ⟨rfl, -⟩ := Prod.mk.inj heq
      rcases ht with ht | ht <;> cases ht
    · split at h
      · obtain ⟨l, -, heq⟩ := Option.map_eq_some_iff.mp h
        obtain ⟨rfl, -⟩ := Prod.mk.inj heq
        rcases ht with ht | ht <;> cases ht
      · have hword := not_opens_of_word? h
        exact absurd ht (not_or.mpr hword)

/-- Tokens that have been cut off stay. -/
theorem prefix_of_tokensOnto? {done ts : List Token} {cs : List Char}
    (h : tokensOnto? done cs = some ts) : done.reverse <+: ts := by
  fun_induction tokensOnto? done cs with
  | case1 done =>
    cases h
    exact List.prefix_rfl
  | case2 done c rest hspace ih => exact ih h
  | case3 => cases h
  | case4 done c rest hspace t rest' ht ih =>
    have hlonger := ih h
    rw [List.reverse_cons] at hlonger
    exact (List.prefix_append done.reverse [t]).trans hlonger

/-- The first token of a text begins where its blanks end. -/
theorem exists_token?_of_tokens? {cs : List Char} {t : Token} {ts : List Token}
    (h : tokens? cs = some (t :: ts)) :
    ∃ blanks c cs' rest, cs = blanks ++ c :: cs' ∧ (∀ b ∈ blanks, isSpace b = true) ∧
      token? (c :: cs') = some (t, rest) := by
  unfold tokens? at h
  induction cs with
  | nil =>
    rw [tokensOnto?] at h
    cases h
  | cons c cs ih =>
    cases hspace : isSpace c with
    | true =>
      rw [tokensOnto?, if_pos hspace] at h
      obtain ⟨blanks, d, cs', rest, rfl, hblanks, htoken⟩ := ih h
      refine ⟨c :: blanks, d, cs', rest, rfl, ?_, htoken⟩
      rintro b (_ | ⟨_, hb⟩)
      · exact hspace
      · exact hblanks b hb
    | false =>
      cases htoken : token? (c :: cs) with
      | none =>
        rw [tokensOnto?, if_neg (by simp [hspace])] at h
        split at h
        · cases h
        · next heq => simp [htoken] at heq
      | some found =>
        obtain ⟨t', rest⟩ := found
        rw [tokensOnto?_of_token? hspace htoken] at h
        have hfirst := prefix_of_tokensOnto? h
        rw [List.reverse_singleton, List.cons_prefix_cons] at hfirst
        rw [hfirst.1] at htoken
        exact ⟨[], c, cs, rest, rfl, by simp, htoken⟩

/-- What is no array and no object is one token. -/
theorem exists_cons_of_ofTokens? {ts : List Token} {v : Json} {s : Snapshot}
    (h : ofTokens? ts = some v) (hs : Snapshot.ofJson? v = some s) :
    ∃ t rest, ts = t :: rest ∧ (t = .openBrace ∨ t = .openBracket) := by
  cases ts with
  | nil => cases h
  | cons t rest =>
    refine ⟨t, rest, rfl, ?_⟩
    cases t with
    | openBrace => exact .inl rfl
    | openBracket => exact .inr rfl
    | closeBrace | closeBracket | colon | comma => cases h
    | null | bool | number | string =>
      cases rest with
      | nil =>
        obtain rfl := Option.some.inj h
        cases hs
      | cons t' rest => cases h

/-- **A snapshot begins with a brace or a bracket.** -/
theorem opens_of_ofText? {text : String} {s : Snapshot} (h : Snapshot.ofText? text = some s) :
    Opens text.toList := by
  obtain ⟨v, hv, hs⟩ := Option.bind_eq_some_iff.mp h
  obtain ⟨ts, hts, htokens⟩ := Option.bind_eq_some_iff.mp hv
  obtain ⟨t, rest, rfl, ht⟩ := exists_cons_of_ofTokens? htokens hs
  obtain ⟨blanks, c, cs, after, htext, hblanks, htoken⟩ := exists_token?_of_tokens? hts
  exact ⟨blanks, c, cs, htext, hblanks, opens_of_token? htoken ht⟩

end Json

/-! ## How the lines of a configuration begin -/

namespace Config

/-- A line that begins with what begins no key, once its blanks are skipped. -/
def Blocked (line : List Char) : Prop :=
  ∃ blanks c rest, line = blanks ++ c :: rest ∧ (∀ b ∈ blanks, b = ' ' ∨ b = '\t') ∧
    (c = '\x7b' ∨ c = '[' ∨ c = '\r')

theorem Blocked.append {line : List Char} (h : Blocked line) (more : List Char) :
    Blocked (line ++ more) := by
  obtain ⟨blanks, c, rest, rfl, hblanks, hc⟩ := h
  exact ⟨blanks, c, rest ++ more, by rw [List.append_assoc, List.cons_append], hblanks, hc⟩

/-- Such a line says nothing that a configuration can say. -/
theorem Blocked.line?_eq_none {line : List Char} (h : Blocked line) : line? line = none := by
  obtain ⟨blanks, c, rest, rfl, hblanks, hc⟩ := h
  have hdrop : dropSpaces (blanks ++ c :: rest) = c :: rest := by
    unfold dropSpaces
    rw [List.dropWhile_append_of_pos (by simpa using hblanks), List.dropWhile_cons_of_neg]
    rcases hc with rfl | rfl | rfl <;> decide
  unfold line? isRemainder
  rw [hdrop]
  rcases hc with rfl | rfl | rfl <;> rfl

/-- The line that is being read is the beginning of one of the lines. -/
theorem exists_append_mem_linesOnto (done : List (List Char)) (line cs : List Char) :
    (∀ l ∈ done, l ∈ linesOnto done line cs) ∧
      ∃ more, line.reverse ++ more ∈ linesOnto done line cs := by
  fun_induction linesOnto done line cs with
  | case1 done line => exact ⟨fun l hl => by simp [hl], [], by simp⟩
  | case2 done line rest ih =>
    exact ⟨fun l hl => ih.1 l (List.mem_cons_of_mem _ hl), [], by
      rw [List.append_nil]
      exact ih.1 _ List.mem_cons_self⟩
  | case3 done line rest ih =>
    exact ⟨fun l hl => ih.1 l (List.mem_cons_of_mem _ hl), [], by
      rw [List.append_nil]
      exact ih.1 _ List.mem_cons_self⟩
  | case4 done line c rest _ _ ih =>
    obtain ⟨hdone, more, hmore⟩ := ih
    refine ⟨hdone, c :: more, ?_⟩
    rwa [List.reverse_cons, List.append_assoc] at hmore

/-- A line that is blocked already stays so, whatever is read after it. -/
theorem exists_blocked_of_reverse {line : List Char} (h : Blocked line.reverse)
    (done : List (List Char)) (cs : List Char) : ∃ l ∈ linesOnto done line cs, Blocked l := by
  obtain ⟨-, more, hmore⟩ := exists_append_mem_linesOnto done line cs
  exact ⟨_, hmore, h.append more⟩

/-- A character that begins no key blocks the line it is read into. -/
theorem blocked_reverse_cons {line : List Char} {c : Char} (hline : ∀ b ∈ line, b = ' ' ∨ b = '\t')
    (hc : c = '\x7b' ∨ c = '[' ∨ c = '\r') : Blocked (c :: line).reverse :=
  ⟨line.reverse, c, [], List.reverse_cons, fun b hb => hline b (List.mem_reverse.mp hb), hc⟩

/-- After blanks of JSON, the line in which a brace or a bracket stands is blocked, if none is
before it. -/
theorem exists_blocked {blanks : List Char} {c : Char} (rest : List Char)
    (hblanks : ∀ b ∈ blanks, Json.isSpace b = true) (hc : c = '\x7b' ∨ c = '[')
    (done : List (List Char)) {line : List Char} (hline : ∀ b ∈ line, b = ' ' ∨ b = '\t') :
    ∃ l ∈ linesOnto done line (blanks ++ c :: rest), Blocked l := by
  induction blanks generalizing done line with
  | nil =>
    have hread : linesOnto done line (c :: rest) = linesOnto done (c :: line) rest := by
      rcases hc with rfl | rfl <;> rfl
    rw [List.nil_append, hread]
    exact exists_blocked_of_reverse (blocked_reverse_cons hline (hc.imp_right .inl)) done rest
  | cons b blanks ih =>
    have ih := fun done line => @ih (fun b hb => hblanks b (List.mem_cons_of_mem _ hb)) done line
    have hb := hblanks b List.mem_cons_self
    simp only [Json.isSpace, Bool.or_eq_true, beq_iff_eq] at hb
    obtain ((rfl | rfl) | rfl) | rfl := hb
    · exact ih done _ (by simpa using hline)
    · exact ih done _ (by simpa using hline)
    · exact ih _ _ (by simp)
    · by_cases hfeed : ∃ after, blanks ++ c :: rest = '\n' :: after
      · -- the two characters end the line together, as the second would alone
        obtain ⟨after, hafter⟩ := hfeed
        have hnext := ih done line hline
        rw [hafter] at hnext
        rw [List.cons_append, hafter]
        exact hnext
      · have hread : linesOnto done line ('\r' :: (blanks ++ c :: rest))
            = linesOnto done ('\r' :: line) (blanks ++ c :: rest) := by
          rw [linesOnto]
          · exact fun after _ hafter => hfeed ⟨after, hafter⟩
          · exact nofun
        rw [List.cons_append, hread]
        exact exists_blocked_of_reverse (blocked_reverse_cons hline (by simp)) done _

/-- One line that says nothing spoils the others. -/
theorem rowsOfLines?_of_blocked {ls : List (List Char)} {l : List Char} (hl : l ∈ ls)
    (hblocked : Blocked l) : rowsOfLines? ls = none := by
  have hnone : ls.mapM line? = none := by
    induction ls with
    | nil => cases hl
    | cons first ls ih =>
      rw [List.mapM_cons]
      cases hsaid : line? first with
      | none => rfl
      | some said =>
        rcases List.mem_cons.mp hl with rfl | hl
        · rw [hblocked.line?_eq_none] at hsaid
          cases hsaid
        · rw [ih hl]
          rfl
  rw [rowsOfLines?, hnone]

/-- **No text is both a snapshot and a configuration.** -/
theorem ofText_ne_ok_of_snapshot {text : String} {s : Snapshot}
    (h : Snapshot.ofText? text = some s) (config : Config) : ofText text ≠ .ok config := by
  obtain ⟨blanks, c, rest, htext, hblanks, hc⟩ := Json.opens_of_ofText? h
  have hmark : rowsOfChars? text.toList = rowsOfLines? (lines text.toList) := by
    unfold rowsOfChars?
    split
    · next cs hcs =>
      -- the byte order mark is no blank
      rw [htext] at hcs
      cases blanks with
      | nil => rcases hc with rfl | rfl <;> cases hcs
      | cons b blanks =>
        obtain ⟨rfl, -⟩ := List.cons.inj hcs
        cases hblanks _ List.mem_cons_self
    · rfl
  have hstart : ∀ b ∈ ([] : List Char), b = ' ' ∨ b = '\t' := fun b hb => by cases hb
  obtain ⟨l, hl, hblocked⟩ := exists_blocked rest hblanks hc [] hstart
  rw [← htext, ← lines] at hl
  rw [ofText, hmark, rowsOfLines?_of_blocked hl hblocked]
  nofun

end Config

end FormulaSheet
