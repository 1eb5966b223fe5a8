import Formula.Proofs.Scanning

/-!
# Blanks separate

What stands on the two sides of a blank is scanned as if the other side were not there. Nothing
before a blank grows with it, so a text can be cut there; the scan of the second part differs from
a scan of that part alone only in where its tokens and its error are.

## Main definitions

* `Token.shift`, `LexError.shift` — the same token, the same error, further on in a source.

## Main statements

* `Lexeme.split_blanks` — the lexemes of a text with blanks inside.
* `Lexeme.allTokens_shift` — tokens and errors move with the offset of their text.
* `scan_separated` — the scan of two texts with blanks between them.
-/

namespace Formula

/-! ## Moving tokens and errors -/

def Token.shift (n : Nat) (t : Token) : Token :=
  { t with offset := n + t.offset }

def LexError.shift (n : Nat) : LexError → LexError
  | unexpectedCharacter character offset => unexpectedCharacter character (n + offset)
  | malformedNumber lexeme offset => malformedNumber lexeme (n + offset)

/-- What a scan gives for a text that stands `n` bytes further on. -/
def shifted (n : Nat) : Except LexError (List Token) → Except LexError (List Token)
  | .ok ts => .ok (ts.map (Token.shift n))
  | .error e => .error (e.shift n)

theorem shifted_bind_append (n : Nat) (first rest : Except LexError (List Token)) :
    shifted n (first >>= fun us => rest >>= fun ws => pure (us ++ ws)) =
      shifted n first >>= fun us => shifted n rest >>= fun ws => pure (us ++ ws) := by
  cases first with
  | error e => rfl
  | ok us =>
    cases rest with
    | error e => rfl
    | ok ws => exact congrArg Except.ok List.map_append

theorem Token.letters_shift (n offset : Nat) (w : List Char) :
    Token.letters (n + offset) w = (Token.letters offset w).map (Token.shift n) := by
  induction w generalizing offset with
  | nil => rfl
  | cons c cs ih => simp [Token.letters, Token.shift, Nat.add_assoc, ih]

theorem Token.ofWord_shift (v : Vocabulary) (n offset : Nat) (w : List Char) :
    Token.ofWord v (n + offset) w = (Token.ofWord v offset w).map (Token.shift n) := by
  unfold ofWord
  dsimp only
  split
  · rfl
  split
  · rfl
  · exact letters_shift n offset w

namespace Lexeme

variable {v : Vocabulary}

theorem tokens_shift (l : Lexeme) (n offset : Nat) :
    l.tokens v (n + offset) = shifted n (l.tokens v offset) := by
  cases l with
  | blank | symbol | stray => rfl
  | number text =>
    by_cases h : text.getLast? = some '.' <;> simp [tokens, h, shifted] <;> rfl
  | word letters => exact congrArg Except.ok (Token.ofWord_shift v n offset letters)

theorem allTokens_shift (n offset : Nat) (ls : List Lexeme) :
    allTokens v (n + offset) ls = shifted n (allTokens v offset ls) := by
  induction ls generalizing offset with
  | nil => rfl
  | cons l ls ih =>
    rw [allTokens, allTokens, tokens_shift, Nat.add_assoc, ih, shifted_bind_append]

/-! ## Cutting at blanks -/

/-- No lexeme goes on with a blank. -/
theorem growsWith_of_isBlank (l : Lexeme) {c : Char} (h : isBlank c = true) :
    l.growsWith c = false := by
  obtain ⟨hdigit, halpha⟩ := classes_of_isBlank h
  have hpoint : c ≠ '.' := by
    rintro rfl
    cases h
  have hequal : c ≠ '=' := by
    rintro rfl
    cases h
  cases l <;> simp [growsWith, hdigit, halpha, hpoint, hequal]

/-- Each blank is a lexeme of its own. -/
theorem split_of_blanks {w : List Char} (hw : ∀ c ∈ w, isBlank c = true) (rest : List Char) :
    split (w ++ rest) = w.map blank ++ split rest := by
  induction w with
  | nil => rfl
  | cons c w ih =>
    obtain ⟨hc, hw⟩ := List.forall_mem_cons.1 hw
    have hfirst : split (c :: (w ++ rest)) = blank c :: split (w ++ rest) :=
      (WellFormed.blank hc).split_append (by simp [growsWith])
    rw [List.cons_append, hfirst, ih hw, List.map_cons, List.cons_append]

theorem split_blanks {w : List Char} (hne : w ≠ []) (hw : ∀ c ∈ w, isBlank c = true)
    (before after : List Char) :
    split (before ++ (w ++ after)) = split before ++ (w.map blank ++ split after) := by
  rw [split_append, split_of_blanks hw]
  intro l _ c hc
  obtain ⟨d, w, rfl⟩ := List.exists_cons_of_ne_nil hne
  obtain rfl : d = c := by simpa using hc
  exact l.growsWith_of_isBlank (hw d (by simp))

theorem allTokens_blank (offset : Nat) (c : Char) (ls : List Lexeme) :
    allTokens v offset (blank c :: ls) = allTokens v (offset + c.utf8Size) ls := by
  show (allTokens v (offset + (c.utf8Size + 0)) ls >>= fun ws => pure ([] ++ ws)) = _
  simp

theorem allTokens_blanks (offset : Nat) (w : List Char) (ls : List Lexeme) :
    allTokens v offset (w.map blank ++ ls) = allTokens v (offset + byteSize w) ls := by
  induction w generalizing offset with
  | nil => simp
  | cons c w ih =>
    rw [List.map_cons, List.cons_append, allTokens_blank, ih, byteSize_cons, Nat.add_assoc]

end Lexeme

/-! ## Scanning on both sides -/

/-- The scan of two texts with blanks between them: first that of the first text, then that of the
second one, moved behind the blanks. -/
theorem Token.scan_blanks (v : Vocabulary) {before w after : String} (hne : w ≠ "")
    (hw : ∀ c ∈ w.toList, Lexeme.isBlank c = true) :
    Token.scan v (before ++ w ++ after) = do
      let us ← Token.scan v before
      let ws ← shifted (before ++ w).utf8ByteSize (Token.scan v after)
      return us ++ ws := by
  have hlist : (before ++ w ++ after).toList = before.toList ++ (w.toList ++ after.toList) := by
    simp
  have hempty : w.toList ≠ [] := by simpa using hne
  have hsize : 0 + byteSize before.toList + byteSize w.toList =
      (before ++ w).utf8ByteSize + 0 := by simp
  rw [Token.scan, hlist, Lexeme.split_blanks hempty hw, Lexeme.allTokens_append,
    Lexeme.flatMap_text_split, Lexeme.allTokens_blanks, hsize, Lexeme.allTokens_shift]
  rfl

/-- Blanks separate: the first error of two texts with blanks between them is the error of the
first text, or that of the second one at its new place; and without errors the tokens are those of
both texts. -/
theorem scan_separated (v : Vocabulary) (before w after : String) (hne : w ≠ "")
    (hw : ∀ c ∈ w.toList, c ∈ [' ', '\t', '\r', '\n']) :
    (∀ e, Token.scan v before = .error e → Token.scan v (before ++ w ++ after) = .error e) ∧
    (∀ ts e, Token.scan v before = .ok ts → Token.scan v after = .error e →
      Token.scan v (before ++ w ++ after) = .error (e.shift (before ++ w).utf8ByteSize)) ∧
    ∀ ts us, Token.scan v before = .ok ts → Token.scan v after = .ok us →
      Token.scan v (before ++ w ++ after) =
        .ok (ts ++ us.map (Token.shift (before ++ w).utf8ByteSize)) := by
  have hblank : ∀ c ∈ w.toList, Lexeme.isBlank c = true := by
    intro c hc
    have hmem := hw c hc
    simp only [List.mem_cons, List.not_mem_nil, or_false] at hmem
    rcases hmem with rfl | rfl | rfl | rfl <;> rfl
  rw [Token.scan_blanks v hne hblank]
  refine ⟨fun e hbefore => ?_, fun ts e hbefore hafter => ?_, fun ts us hbefore hafter => ?_⟩
  · rw [hbefore]
    rfl
  · rw [hbefore, hafter]
    rfl
  · rw [hbefore, hafter]
    rfl

/-- A radix point stays without digits, a letter of a name stays alone, and a number behind the
blanks is at fault at its new place. -/
theorem scan_separated_open_lexemes :
    let v : Vocabulary := { isFunction := fun name => name == "sin", isConstant := fun _ => false }
    Token.scan v ("1." ++ " " ++ "5") = .error (.malformedNumber "1." 0) ∧
    Token.scan v ("x>" ++ "\t\n" ++ "=1.") = .error (.malformedNumber "1." 5) ∧
    Token.scan v ("si" ++ "\r" ++ "n") =
      .ok [⟨.identifier, "s", 0⟩, ⟨.identifier, "i", 1⟩, ⟨.identifier, "n", 3⟩] := by
  intro v
  have number : Token.scan v "1." = .error (.malformedNumber "1." 0) := by with_unfolding_all rfl
  have greater : Token.scan v "x>" = .ok [⟨.identifier, "x", 0⟩, ⟨.greater, ">", 1⟩] := by
    with_unfolding_all rfl
  have equal : Token.scan v "=1." = .error (.malformedNumber "1." 1) := by with_unfolding_all rfl
  have letters : Token.scan v "si" = .ok [⟨.identifier, "s", 0⟩, ⟨.identifier, "i", 1⟩] := by
    with_unfolding_all rfl
  have letter : Token.scan v "n" = .ok [⟨.identifier, "n", 0⟩] := by with_unfolding_all rfl
  refine ⟨?_, ?_, ?_⟩
  · exact (scan_separated v "1." " " "5" (by decide) (by simp)).1 _ number
  · exact (scan_separated v "x>" "\t\n" "=1." (by decide) (by simp)).2.1 _ _ greater equal
  · exact (scan_separated v "si" "\r" "n" (by decide) (by simp)).2.2 _ _ letters letter

end Formula
