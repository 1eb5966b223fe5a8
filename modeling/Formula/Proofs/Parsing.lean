import Formula.Proofs.Completeness.Declaration
import Formula.Proofs.Soundness.Declaration

/-!
# Parsing and the grammar

The parser accepts the token lists of the grammar and no others, and the tree it returns is the one
that the grammar has for them. When it rejects a list it blames the first token that no declaration
can have at that place.

## Main statements

* `parse_grammar` — soundness and completeness, and that the grammar is unambiguous.
* `parse_error_at_first_offence` — where an error points.
-/

namespace Formula

variable {ts : List Token} {d : Declaration} {e : ParseError}

theorem Cursor.settled_start (ts : List Token) : (Cursor.start ts).Settled :=
  fun _ hm => nomatch hm

theorem parse_eq_ok_iff :
    Declaration.parse ts = .ok d ↔ ∃ c', Reader.declaration (Cursor.start ts) = .ok (d, c') := by
  rw [Reader.parse_eq]
  cases Reader.declaration (Cursor.start ts) <;> simp [Except.map, Prod.ext_iff]

theorem parse_eq_error_iff :
    Declaration.parse ts = .error e ↔ Reader.declaration (Cursor.start ts) = .error e := by
  rw [Reader.parse_eq]
  cases Reader.declaration (Cursor.start ts) <;> simp [Except.map]

theorem DeclarationPhrase.parse_eq (h : DeclarationPhrase ts d) : Declaration.parse ts = .ok d :=
  parse_eq_ok_iff.2 h.reads

theorem declarationPhrase_of_parse (h : Declaration.parse ts = .ok d) : DeclarationPhrase ts d := by
  obtain ⟨c', hr⟩ := parse_eq_ok_iff.1 h
  have follows := Reader.follows_declaration (Cursor.settled_start ts) rfl
  obtain ⟨b, us, hm, -, phrase, -⟩ := follows.success d c' hr
  have hts : ts = us ++ c'.ahead := hm.ahead
  rw [Reader.readsAll_declaration _ _ _ hr, List.append_nil] at hts
  rwa [hts]

theorem DeclarationPhrase.unique {d' : Declaration} (h : DeclarationPhrase ts d)
    (h' : DeclarationPhrase ts d') : d = d' :=
  Except.ok.inj (h.parse_eq.symm.trans h'.parse_eq)

/-- The parser returns a declaration exactly if the grammar has it for the tokens, and the grammar
has at most one. -/
theorem parse_grammar (ts : List Token) :
    (∀ d, Declaration.parse ts = .ok d ↔ DeclarationPhrase ts d) ∧
      ∀ d d', DeclarationPhrase ts d → DeclarationPhrase ts d' → d = d' :=
  ⟨fun _ => ⟨declarationPhrase_of_parse, DeclarationPhrase.parse_eq⟩,
    fun _ _ h h' => h.unique h'⟩

/-- `f(x) = { 1 < x <= 1, x == 1 } g_1(x, 1) ^ -1 / |x| 1 % x! - c`, every number written `1`. -/
theorem parse_grammar_guarded_quotient :
    let x : Expr := .literal (.ofKind .identifier)
    let one : Expr := .literal (.ofKind .number)
    Declaration.parse ([.identifier, .parenOpen, .identifier, .parenClose, .equal,
      .braceOpen, .number, .less, .identifier, .lessEqual, .number, .comma, .identifier, .equal,
      .number, .braceClose, .function, .underscore, .number, .parenOpen, .identifier, .comma,
      .number, .parenClose, .caret, .minus, .number, .slash, .pipe, .identifier, .pipe, .number,
      .percent, .identifier, .bang, .minus, .constant].map .ofKind) = .ok
        { name := .ofKind .identifier, params := [.ofKind .identifier],
          clauses := [.chain (.compare one .less x) .lessEqual one, .compare x .equal one],
          body := .binary .sub (.binary .mod (.binary .mul (.binary .div
            (.binary .pow (.call (.ofKind .function) (some one) [x, one]) (.unary .negate one))
            (.abs x)) one) (.unary .factorial x)) (.literal (.ofKind .constant)) } := by
  intro x one
  have hx (o : Bool) : Phrase .primary o false [.ofKind .identifier] x := .literal (.inr (.inl rfl))
  have hone (o : Bool) : Phrase .primary o false [.ofKind .number] one := .literal (.inl rfl)
  have sum {o b : Bool} {ts : List Token} {e : Expr} (h : Phrase .primary o b ts e) :
      Phrase .sum o b ts e := h.power_of_primary.sum_of_power
  -- the body, from the inside out
  have call : Phrase .primary false false _ (.call (.ofKind .function) (some one) [x, one]) :=
    .apply (.subscript (u := .ofKind .underscore) rfl rfl (hone false))
      (l := .ofKind .parenOpen) rfl
      (.moreArguments (s := .ofKind .comma) (sum (hx false)) rfl (.argument (sum (hone false))))
      (r := .ofKind .parenClose) rfl
  have power := Phrase.raise (.ofFactorial (.ofPrimary call)) (t := .ofKind .caret) rfl
    (.ofNegation (.negate (t := .ofKind .minus) rfl (.ofFactorial (.ofPrimary (hone false)))))
  have abs : Phrase .primary false true _ (.abs x) :=
    .abs (l := .ofKind .pipe) rfl (sum (hx true)) (r := .ofKind .pipe) rfl
  have quotient := Phrase.multiply (.ofPower power) (t := .ofKind .slash) .slash
    abs.power_of_primary
  have product := Phrase.juxtapose quotient nofun .number (hone false).power_of_primary
  have remainder := Phrase.multiply product (t := .ofKind .percent) .percent
    (.ofNegation (.ofFactorial (.bang (t := .ofKind .bang) (.ofPrimary (hx false)) rfl)))
  have constant : Phrase .primary false false _ (.literal (.ofKind .constant)) :=
    .literal (.inr (.inr rfl))
  have body := Phrase.add (.ofProduct remainder) (t := .ofKind .minus) .minus
    (.ofPower constant.power_of_primary)
  -- the guard
  have chain := ClausePhrase.chain (.compare (t := .ofKind .less) (sum (hone false)) .less
    (sum (hx false))) (t := .ofKind .lessEqual) .lessEqual (sum (hone false))
  have equation := ClausePhrase.compare (t := .ofKind .equal) (sum (hx false)) .equal
    (sum (hone false))
  have block := GuardPhrase.block (l := .ofKind .braceOpen) rfl
    (.more (s := .ofKind .comma) chain rfl (.one equation)) (r := .ofKind .braceClose) rfl
  have parameters : Separated ParameterPhrase [.ofKind .identifier] [.ofKind .identifier] :=
    .one ⟨rfl, rfl⟩
  have header : HeaderPhrase
      ([.identifier, .parenOpen, .identifier, .parenClose, .equal].map .ofKind)
      (.ofKind .identifier) [.ofKind .identifier] :=
    .function rfl rfl parameters rfl rfl
  exact ((parse_grammar _).1 _).2 (.guardFirst header block body)

/-! ## Errors -/

theorem ParseError.token?_eq_some_iff {t : Token} :
    e.token? = some t ↔ (∃ expected, e = .unexpectedToken t expected) ∨ e = .trailingTokens t ∨
      e = .ambiguousAbs t ∨ e = .duplicateGuard t := by
  cases e <;> simp [token?]

theorem ParseError.token?_eq_none_iff :
    e.token? = none ↔ ∃ expected, e = .unexpectedEnd expected := by
  cases e <;> simp [token?]

/-- A rejected list splits where the error points: before that place stands the beginning of a
declaration, and after the next token the error stays whatever follows. -/
theorem parse_error_split (h : Declaration.parse ts = .error e) :
    ∃ us rest, ts = us ++ rest ∧ e.token? = rest.head? ∧
      (∃ more d, Declaration.parse (us ++ more) = .ok d) ∧
      ∀ rest', rest'.head? = rest.head? → Declaration.parse (us ++ rest') = .error e := by
  have follows := Reader.follows_declaration (Cursor.settled_start ts) rfl
  obtain ⟨us, rest, hts, htoken, ⟨_, more, d, phrase⟩, same⟩ :=
    follows.failure e (parse_eq_error_iff.1 h)
  exact ⟨us, rest, hts, htoken, ⟨more, d, phrase.parse_eq⟩,
    fun rest' hrest => parse_eq_error_iff.2 (same rest' hrest)⟩

/-- An error points at the first token that rules the input out, or at the end of an input that
could go on. -/
theorem parse_error_at_first_offence (h : Declaration.parse ts = .error e) :
    ∃ i, i ≤ ts.length ∧
      (∃ more d, Declaration.parse (ts.take i ++ more) = .ok d) ∧
      (∀ t, ts[i]? = some t →
        (∀ more d, Declaration.parse (ts.take (i + 1) ++ more) ≠ .ok d) ∧
        ((∃ expected, e = .unexpectedToken t expected) ∨ e = .trailingTokens t ∨
          e = .ambiguousAbs t ∨ e = .duplicateGuard t)) ∧
      (i = ts.length ↔ ∃ expected, e = .unexpectedEnd expected) := by
  obtain ⟨us, rest, rfl, htoken, completed, same⟩ := parse_error_split h
  refine ⟨us.length, by simp, by simpa using completed, ?_, ?_⟩
  · intro t ht
    have hrest : rest.head? = some t := by
      rwa [List.getElem?_append_right (Nat.le_refl _), Nat.sub_self,
        ← List.head?_eq_getElem?] at ht
    refine ⟨fun more d hd => ?_, ParseError.token?_eq_some_iff.1 (htoken.trans hrest)⟩
    have htake : (us ++ rest).take (us.length + 1) = us ++ [t] := by
      obtain ⟨rest', rfl⟩ := List.head?_eq_some_iff.1 hrest
      simp [List.take_append, List.take_of_length_le]
    rw [htake, List.append_assoc, same ([t] ++ more) (by simp [hrest])] at hd
    cases hd
  · rw [← ParseError.token?_eq_none_iff, htoken, List.head?_eq_none_iff]
    simp

/-- An absolute value that opens and closes inside another one, and an operand right after it. -/
def operandAfterInnerAbs : List Token :=
  [.identifier, .parenOpen, .parenClose, .equal, .pipe, .pipe, .number, .pipe, .number,
    .pipe].map .ofKind

theorem parse_error_at_first_offence_inside_abs :
    Declaration.parse operandAfterInnerAbs = .error (.ambiguousAbs (.ofKind .number)) ∧
      ∃ i, i < operandAfterInnerAbs.length ∧
        (∃ more d, Declaration.parse (operandAfterInnerAbs.take i ++ more) = .ok d) ∧
        ∀ more d, Declaration.parse (operandAfterInnerAbs.take (i + 1) ++ more) ≠ .ok d := by
  have rejected : Declaration.parse operandAfterInnerAbs =
      .error (.ambiguousAbs (.ofKind .number)) := by with_unfolding_all rfl
  obtain ⟨i, hi, completed, offence, atEnd⟩ := parse_error_at_first_offence rejected
  have hlt : i < operandAfterInnerAbs.length := by
    refine Nat.lt_of_le_of_ne hi fun heq => ?_
    obtain ⟨expected, hend⟩ := atEnd.1 heq
    cases hend
  exact ⟨rejected, i, hlt, completed, (offence _ (List.getElem?_eq_getElem hlt)).1⟩

end Formula
