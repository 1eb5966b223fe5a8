import Formula.Proofs.Scanning

/-!
# The sources that can be scanned

Which sources have tokens can be told from their characters and from their runs of digits and radix
points, without following the scan and without a vocabulary. A source that has no tokens is at fault
at one place: what stands before it can be scanned, and what stands there starts no token or is a
number that ends in its radix point.

## Main definitions

* `IsLexical` — the sources that have tokens.
* `LexError.At` — what stands at the place of an error.

## Main statements

* `Lexeme.isFaulty_iff` — a text is lexical if none of its lexemes is faulty.
* `Lexeme.allTokens_eq_error` — the error of a scan is that of the first faulty lexeme.
* `scan_accepts_lexical` — the sources that have tokens, and the error of all others.
-/

namespace Formula

/-! ## Sources with tokens -/

def punctuation : List Char :=
  ['(', ')', '\x7b', '\x7d', '|', '+', '-', '*', '/', '^', '!', '%', '=', '>', '<', ',', '_']

/-- The characters that a token or a blank can start with. -/
def opensLexeme (c : Char) : Bool :=
  c.isAlpha || c.isDigit || punctuation.contains c || [' ', '\t', '\r', '\n'].contains c

/-- All characters have a use, and digits and radix points side by side make up a decimal. -/
structure IsLexical (cs : List Char) : Prop where
  legal : ∀ c ∈ cs, opensLexeme c = true ∨ c = '.'
  decimal : ∀ before w after, cs = before ++ w ++ after →
    MaximalRun Lexeme.isNumeric before w after → IsDecimal w

/-- A text that begins with an error, the beginning being at the given offset of a source. -/
inductive LexError.At (offset : Nat) : List Char → LexError → Prop where
  | unexpectedCharacter {c : Char} {after : List Char} (h : opensLexeme c = false) :
      At offset (c :: after) (.unexpectedCharacter c offset)
  | malformedNumber {digits after : List Char} (h : IsDigits digits)
      (hafter : ∀ c ∈ after.head?, c.isDigit = false) :
      At offset (digits ++ '.' :: after)
        (.malformedNumber (String.ofList (digits ++ ['.'])) offset)

/-- Cutting a text does not change the runs behind the cut, unless it goes through one. -/
theorem IsLexical.of_append {u cs : List Char} (h : IsLexical (u ++ cs))
    (hcut : ∀ a ∈ u.getLast?, ∀ b ∈ cs.head?, Lexeme.isNumeric a = true →
      Lexeme.isNumeric b = false) : IsLexical cs := by
  refine ⟨fun c hc => h.legal c (by simp [hc]), fun before w after hcs hrun => ?_⟩
  refine h.decimal (u ++ before) w after (by simp [hcs]) { hrun with starts := ?_ }
  intro a ha
  cases before with
  | nil =>
    obtain ⟨b, bs, rfl⟩ := List.exists_cons_of_ne_nil hrun.ne_nil
    have hb := hrun.all b (by simp)
    have := hcut a (by simpa using ha) b (by simp [hcs])
    grind
  | cons d ds =>
    exact hrun.starts a (by simpa [List.getLast?_append] using ha)

namespace Lexeme

variable {l : Lexeme} {v : Vocabulary} {offset : Nat} {e : LexError}

/-! ### Characters of lexemes -/

theorem isSome_symbolKind? (c : Char) : (symbolKind? c).isSome = punctuation.contains c := by
  unfold symbolKind?
  split
  case h_18 => simp_all [punctuation]
  all_goals rfl

theorem opensLexeme_eq (c : Char) :
    opensLexeme c = (isBlank c || c.isDigit || c.isAlpha || (symbolKind? c).isSome) := by
  rw [opensLexeme, isBlank, isSome_symbolKind?]
  grind

theorem opensLexeme_stray {c : Char} (h : (stray c).WellFormed) : opensLexeme c = false := by
  cases h with
  | stray hblank hdigit halpha h => simp [opensLexeme_eq, hblank, hdigit, halpha, h]

theorem opensLexeme_of_mem_text (h : l.WellFormed) (hfaulty : l.isFaulty = false) {c : Char}
    (hc : c ∈ l.text) : opensLexeme c = true ∨ c = '.' := by
  cases l with
  | number w =>
    have := h.isNumeric_number c hc
    grind [isNumeric, opensLexeme]
  | word w =>
    cases h with
    | word h => simp [opensLexeme, h.2 c hc]
  | symbol kind w =>
    cases h with
    | symbol h =>
      cases List.mem_singleton.1 hc
      simp [opensLexeme_eq, h]
    | orEqual h =>
      rcases List.mem_cons.1 hc with rfl | hc
      · simp [opensLexeme_eq, h]
      · cases List.mem_singleton.1 hc
        exact .inl rfl
  | blank d =>
    cases h with
    | blank h =>
      cases List.mem_singleton.1 hc
      simp [opensLexeme_eq, h]
  | stray d => cases hfaulty

/-! ### Texts without faults -/

theorem isLexical_of_isFaulty {cs : List Char} (h : ∀ l ∈ split cs, l.isFaulty = false) :
    IsLexical cs := by
  constructor
  · intro c hc
    rw [← flatMap_text_split cs] at hc
    obtain ⟨l, hl, hc⟩ := List.mem_flatMap.1 hc
    exact opensLexeme_of_mem_text (wellFormed_of_mem_split hl) (h l hl) hc
  · rintro before w after rfl hrun
    exact (isDecimal_of_numericRun hrun h).2

theorem isFaulty_number {w : List Char} (h : IsDecimal w) : (number w).isFaulty = false := by
  have hlast (w : List Char) (h : IsDigits w) : w.getLast? ≠ some '.' := fun hdot =>
    not_mem_of_isDigit h.2 (List.mem_of_getLast? hdot)
  obtain h | ⟨whole, digits, -, hdigits, rfl⟩ := h
  · simpa [isFaulty] using hlast w h
  · have := hlast digits hdigits
    simp [isFaulty, List.getLast?_append, List.getLast?_cons_of_ne_nil hdigits.1, this, hdigits.1]

/-- The first lexeme of a lexical text is sound, and the text behind it is lexical again. -/
theorem isFaulty_take {c : Char} {cs : List Char} (h : IsLexical (c :: cs)) :
    (take c cs).1.isFaulty = false ∧ IsLexical (take c cs).2 := by
  by_cases hc : isNumeric c = true
  · -- a run of digits and radix points is a decimal, and is taken as a whole
    have hrun : MaximalRun isNumeric [] ((c :: cs).takeWhile isNumeric)
        ((c :: cs).dropWhile isNumeric) :=
      { ne_nil := by simp [hc]
        all := fun d hd => List.mem_takeWhile_imp hd
        starts := by simp
        ends := head?_dropWhile isNumeric (c :: cs) }
    have hdecimal := h.decimal _ _ _ (by simp) hrun
    have htake := (WellFormed.of_isDecimal hdecimal).take_eq
      (List.takeWhile_append_dropWhile (p := isNumeric)).symm fun b hb => by
        have := hrun.ends b hb
        grind [growsWith, isNumeric]
    rw [htake]
    refine ⟨isFaulty_number hdecimal, ?_⟩
    rw [← List.takeWhile_append_dropWhile (p := isNumeric) (l := c :: cs)] at h
    exact h.of_append fun _ _ b hb _ => hrun.ends b hb
  · have htext := text_take c cs
    obtain ⟨hwell, -⟩ := wellFormed_take c cs
    generalize (take c cs).1 = l, (take c cs).2 = rest at *
    have hmem := hwell.mem_text htext.symm
    have hstray : ∀ d, l ≠ stray d := by
      rintro d rfl
      cases List.mem_singleton.1 hmem
      have := h.legal c (by simp)
      grind [isNumeric, opensLexeme_stray hwell]
    have hnumber : ∀ w, l ≠ number w := by
      rintro w rfl
      exact hc (hwell.isNumeric_number c hmem)
    refine ⟨?_, (htext ▸ h).of_append fun a ha _ _ hnumeric => ?_⟩
    · cases l <;> simp_all [isFaulty]
    · have := hwell.number_or_stray (List.mem_of_getLast? ha) hnumeric
      grind

theorem isFaulty_of_isLexical {cs : List Char} (h : IsLexical cs) :
    ∀ l ∈ split cs, l.isFaulty = false := by
  fun_induction split cs with
  | case1 => simp
  | case2 c cs ih =>
    obtain ⟨hfirst, hrest⟩ := isFaulty_take h
    exact List.forall_mem_cons.2 ⟨hfirst, ih hrest⟩

theorem isFaulty_iff {cs : List Char} : (∀ l ∈ split cs, l.isFaulty = false) ↔ IsLexical cs :=
  ⟨isLexical_of_isFaulty, isFaulty_of_isLexical⟩

/-! ## Errors -/

/-- The error of a scan is that of the first faulty lexeme. -/
theorem allTokens_eq_error {ls : List Lexeme} :
    allTokens v offset ls = .error e ↔ ∃ xs l ys, ls = xs ++ l :: ys ∧
      (∀ x ∈ xs, x.isFaulty = false) ∧
        l.tokens v (offset + byteSize (xs.flatMap text)) = .error e := by
  constructor
  · intro h
    induction ls generalizing offset with
    | nil => cases h
    | cons l ls ih =>
      rw [allTokens, size_eq] at h
      obtain h | ⟨us, hus, h⟩ := bind_eq_error.1 h
      · exact ⟨[], l, ls, rfl, by simp, by simpa using h⟩
      obtain h | ⟨ws, -, h⟩ := bind_eq_error.1 h
      · obtain ⟨xs, l', ys, rfl, hxs, hl'⟩ := ih h
        refine ⟨l :: xs, l', ys, rfl, List.forall_mem_cons.2 ⟨?_, hxs⟩, ?_⟩
        · exact (l.exists_tokens_iff v offset).1 ⟨us, hus⟩
        · simpa [Nat.add_assoc] using hl'
      · cases h
  · rintro ⟨xs, l, ys, rfl, hxs, hl⟩
    obtain ⟨us, hus⟩ := (exists_allTokens_iff v offset xs).2 hxs
    rw [allTokens_append]
    refine bind_eq_error.2 (.inr ⟨us, hus, bind_eq_error.2 (.inl ?_)⟩)
    rw [allTokens]
    exact bind_eq_error.2 (.inl hl)

/-- An error needs no vocabulary. -/
theorem tokens_eq_error (h : l.tokens v offset = .error e) (v' : Vocabulary) :
    l.tokens v' offset = .error e := by
  cases l with
  | number | stray => exact h
  | _ => cases h

theorem at_of_tokens (hl : l.WellFormed) (h : l.tokens v offset = .error e) {rest : List Char}
    (hrest : ∀ b ∈ rest.head?, l.growsWith b = false) : LexError.At offset (l.text ++ rest) e := by
  cases l with
  | stray c =>
    cases h
    exact .unexpectedCharacter (opensLexeme_stray hl)
  | number w =>
    rw [tokens] at h
    split at h
    · next hlast =>
      cases h
      cases hl with
      | integer hw => exact absurd (List.mem_of_getLast? hlast) (not_mem_of_isDigit hw.2)
      | @fraction whole digits hwhole hdigits =>
        cases digits with
        | nil =>
          have hdigit : ∀ b ∈ rest.head?, b.isDigit = false := fun b hb => by
            rw [← growsWith_fraction whole []]
            exact hrest b hb
          simpa [text] using LexError.At.malformedNumber hwhole hdigit
        | cons d ds =>
          have hdot : (d :: ds).getLast? = some '.' := by
            simpa [List.getLast?_append, List.getLast?_cons_cons] using hlast
          exact absurd (List.mem_of_getLast? hdot) (not_mem_of_isDigit hdigits)
    · cases h
  | _ => cases h

end Lexeme

/-- A source has tokens if it is lexical. Otherwise the error is at the first place that is at
fault, and neither depends on the words that the vocabulary has. -/
theorem scan_accepts_lexical (v : Vocabulary) (source : String) :
    ((∃ ts, Token.scan v source = .ok ts) ↔ IsLexical source.toList) ∧
    (∀ e, Token.scan v source = .error e →
      (∃ before rest : String, source = before ++ rest ∧ (∃ ts, Token.scan v before = .ok ts) ∧
        LexError.At before.utf8ByteSize rest.toList e) ∧
      ∀ v', Token.scan v' source = .error e) := by
  refine ⟨(Lexeme.exists_allTokens_iff ..).trans Lexeme.isFaulty_iff, fun e h => ⟨?_, fun v' => ?_⟩⟩
  · obtain ⟨xs, l, ys, hsplit, hxs, herror⟩ := Lexeme.allTokens_eq_error.1 h
    obtain ⟨before, rest, hsource, rfl, hrest, -⟩ := Lexeme.split_eq_append hsplit
    obtain ⟨hl, after, rfl, -, hgrows⟩ := Lexeme.split_eq_cons hrest
    rw [Lexeme.flatMap_text_split, Nat.zero_add] at herror
    refine ⟨String.ofList before, String.ofList (l.text ++ after), ?_, ?_, ?_⟩
    · rw [← String.toList_inj, hsource]
      simp
    · simpa [Token.scan] using (Lexeme.exists_allTokens_iff v 0 _).2 hxs
    · simpa [byteSize] using Lexeme.at_of_tokens hl herror hgrows
  · obtain ⟨xs, l, ys, hsplit, hxs, herror⟩ := Lexeme.allTokens_eq_error.1 h
    exact Lexeme.allTokens_eq_error.2 ⟨xs, l, ys, hsplit, hxs, Lexeme.tokens_eq_error herror v'⟩

/-- The second radix point of `1.2.3` is at fault, whatever the vocabulary. -/
theorem scan_accepts_lexical_second_point :
    let v : Vocabulary := { isFunction := fun _ => false, isConstant := fun _ => false }
    Token.scan v "1.2.3" = .error (.unexpectedCharacter '.' 3) ∧ ¬ IsLexical "1.2.3".toList ∧
      ∀ v', Token.scan v' "1.2.3" = .error (.unexpectedCharacter '.' 3) := by
  intro v
  have scanned : Token.scan v "1.2.3" = .error (.unexpectedCharacter '.' 3) := by
    with_unfolding_all rfl
  obtain ⟨accepts, rejects⟩ := scan_accepts_lexical v "1.2.3"
  refine ⟨scanned, fun hlexical => ?_, (rejects _ scanned).2⟩
  obtain ⟨ts, hts⟩ := accepts.2 hlexical
  rw [scanned] at hts
  cases hts

end Formula
