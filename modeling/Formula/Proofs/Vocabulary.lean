import Formula.Number.Float
import Formula.Proofs.Defects
import Formula.Proofs.Parsing
import Formula.Proofs.Scanning

/-!
# Words and their meaning

Scanning decides which words are functions and constants by asking a library for its names, and
compilation looks the words up in the same library. The two agree: what was scanned as a function, a
constant or a number has a meaning, so a source can only go wrong in the use it makes of them.

## Main definitions

* `Token.Known` — a token that means something in a vocabulary.

## Main statements

* `Token.known_scan` — all tokens of a source are known.
* `scanned_names_resolve` — the errors that remain for the compilation of a source.
-/

namespace Formula

/-! ## Tokens of a source -/

/-- The vocabulary has the word that the token stands for, and a number is written as one. -/
def Token.Known (v : Vocabulary) (t : Token) : Prop :=
  match t.kind with
  | .function => v.isFunction t.lexeme = true
  | .constant => v.isConstant t.lexeme = true
  | .number => IsDecimal t.lexeme.toList
  | _ => True

section Scanning

variable {v : Vocabulary} {offset : Nat} {us : List Token}

theorem Token.known_of_punctuation {t : Token} (h : t.kind.isPunctuation = true) : t.Known v := by
  unfold Known
  split <;> simp_all [TokenKind.isPunctuation]

theorem Token.known_letters (letters : List Char) :
    ∀ t ∈ Token.letters offset letters, t.Known v := by
  induction letters generalizing offset with
  | nil => simp [Token.letters]
  | cons c cs ih =>
    intro t ht
    rcases List.mem_cons.1 ht with rfl | ht
    · trivial
    · exact ih t ht

theorem Token.known_ofWord (word : List Char) : ∀ t ∈ Token.ofWord v offset word, t.Known v := by
  unfold ofWord
  dsimp only
  split
  · next hfunction => simpa [Known] using hfunction
  split
  · next hconstant => simpa [Known] using hconstant
  · exact known_letters word

theorem Lexeme.WellFormed.known {l : Lexeme} (hl : l.WellFormed) (h : l.tokens v offset = .ok us) :
    ∀ t ∈ us, t.Known v := by
  cases l with
  | blank c =>
    cases h
    simp
  | symbol kind text =>
    cases h
    simpa using Token.known_of_punctuation hl.isPunctuation
  | number w =>
    rw [tokens] at h
    split at h
    · cases h
    · next hlast =>
      cases h
      simpa [Token.Known] using hl.isDecimal hlast
  | word letters =>
    cases h
    exact Token.known_ofWord letters
  | stray c => cases h

theorem Token.known_scan {source : String} {ts : List Token} (h : Token.scan v source = .ok ts) :
    ∀ t ∈ ts, t.Known v := by
  intro t ht
  obtain ⟨xs, l, ys, us, hsplit, hus, ht⟩ := Lexeme.exists_of_mem_allTokens h ht
  have hl : l ∈ Lexeme.split source.toList := by simp [hsplit]
  exact (Lexeme.wellFormed_of_mem_split hl).known hus t ht

end Scanning

/-! ## Numbers -/

/-- Every decimal is the text of a number. -/
def Number.ReadsDecimals (T : Type) [Number T] : Prop :=
  ∀ text : String, IsDecimal text.toList → (Number.ofLiteral? text : Option T).isSome = true

theorem IsDigits.takeWhile_eq {w : List Char} (h : IsDigits w) :
    w.takeWhile Char.isDigit = w ∧ w.dropWhile Char.isDigit = [] := by
  constructor
  · simpa using @List.takeWhile_append_of_pos _ Char.isDigit w [] h.2
  · simpa using @List.dropWhile_append_of_pos _ Char.isDigit w [] h.2

namespace Literal

theorem isSome_finite? {w : List Char} (h : IsDecimal w) (negative : Bool) :
    (finite? negative w).isSome = true := by
  rcases h with h | ⟨whole, fraction, hwhole, hfraction, rfl⟩
  · obtain ⟨htake, hdrop⟩ := h.takeWhile_eq
    simp [finite?, htake, hdrop, takeFraction, power?, h.1]
  · obtain ⟨htake, hdrop⟩ := hfraction.takeWhile_eq
    have hpoint : Char.isDigit '.' = false := by decide
    simp [finite?, List.takeWhile_append_of_pos hwhole.2, List.dropWhile_append_of_pos hwhole.2,
      hpoint, takeFraction, htake, hdrop, power?, hwhole.1]

theorem takeSign_of_isDecimal {w : List Char} (h : IsDecimal w) : takeSign w = (false, w) := by
  have hdigit : ∃ c cs, w = c :: cs ∧ c.isDigit = true := by
    rcases h with ⟨hne, hall⟩ | ⟨whole, fraction, ⟨hne, hall⟩, -, rfl⟩
    · obtain ⟨c, cs, rfl⟩ := List.exists_cons_of_ne_nil hne
      exact ⟨c, cs, rfl, hall c (by simp)⟩
    · obtain ⟨c, cs, rfl⟩ := List.exists_cons_of_ne_nil hne
      exact ⟨c, _, rfl, hall c (by simp)⟩
  obtain ⟨c, cs, rfl, hc⟩ := hdigit
  unfold takeSign
  split
  · next heq =>
    obtain ⟨rfl, -⟩ := List.cons.inj heq
    exact absurd hc (by decide)
  · next heq =>
    obtain ⟨rfl, -⟩ := List.cons.inj heq
    exact absurd hc (by decide)
  · rfl

theorem isSome_parse? {text : String} (h : IsDecimal text.toList) :
    (parse? text).isSome = true := by
  unfold parse?
  rw [takeSign_of_isDecimal h]
  dsimp only
  split
  · rfl
  split
  · rfl
  · exact isSome_finite? h false

end Literal

theorem BinaryFloat.isSome_ofText? {F : Type} [BinaryFloat F] {text : String}
    (h : IsDecimal text.toList) : (ofText? text : Option F).isSome = true := by
  rw [ofText?, Option.isSome_map]
  exact Literal.isSome_parse? h

theorem readsDecimals_float : Number.ReadsDecimals Float :=
  fun _ h => BinaryFloat.isSome_ofText? h

theorem readsDecimals_float32 : Number.ReadsDecimals Float32 :=
  fun _ h => BinaryFloat.isSome_ofText? h

/-! ## Terms of a parsed declaration -/

/-- The token of a literal or of a call is of a kind that belongs there, and has the property. -/
def Expr.Uses (P : Token → Prop) : Expr → Prop
  | .literal t => (t.kind = .number ∨ t.kind = .identifier ∨ t.kind = .constant) ∧ P t
  | .call name _ _ => name.kind = .function ∧ P name
  | _ => True

/-- The same for all terms in a phrase. A phrase of arguments does not have the token of its
call. -/
def Category.Uses (P : Token → Prop) : Category → Expr → Prop
  | .arguments, .call _ _ args => ∀ e ∈ Expr.subtermsAll .before args, e.Uses P
  | _, e => ∀ e' ∈ e.subterms .before, e'.Uses P

section Parsing

variable {P : Token → Prop} {ts : List Token}

/-- The terms of a call are the call, the terms of its arguments and those of its subscript. -/
theorem Expr.uses_call {f : Token} {v : Option Expr} {args : List Expr}
    (hcallee : ∀ e ∈ (Expr.call f v []).subterms .before, e.Uses P)
    (hargs : ∀ e ∈ Expr.subtermsAll .before args, e.Uses P) :
    ∀ e ∈ (Expr.call f v args).subterms .before, e.Uses P := by
  obtain ⟨hcall, hvariant⟩ := List.forall_mem_cons.1 hcallee
  exact List.forall_mem_cons.2 ⟨hcall, List.forall_mem_append.2 ⟨hargs, hvariant⟩⟩

theorem Expr.uses_snoc {e : Expr} {es : List Expr} (hes : ∀ e' ∈ es, e'.Uses P) (he : e.Uses P) :
    ∀ e' ∈ es ++ [e], e'.Uses P :=
  List.forall_mem_append.2 ⟨hes, List.forall_mem_singleton.2 he⟩

theorem Expr.uses_binary {op : BinaryOp} {l r : Expr}
    (hl : ∀ e ∈ l.subterms .before, e.Uses P) (hr : ∀ e ∈ r.subterms .before, e.Uses P) :
    ∀ e ∈ (Expr.binary op l r).subterms .before, e.Uses P :=
  uses_snoc (List.forall_mem_append.2 ⟨hl, hr⟩) trivial

/-- The terms of a phrase have their tokens from the phrase. -/
theorem Phrase.uses {k : Category} {o b : Bool} {e : Expr} (h : Phrase k o b ts e)
    (hts : ∀ t ∈ ts, P t) : k.Uses P e := by
  induction h with
  | literal kind => exact List.forall_mem_singleton.2 ⟨kind, hts _ (by simp)⟩
  | group left inner right ih | abs left inner right ih =>
    exact Expr.uses_snoc (ih fun t ht => hts t (by simp [ht])) trivial
  | callee kind => exact List.forall_mem_singleton.2 ⟨kind, hts _ (by simp)⟩
  | subscript kind mark variant ih =>
    exact List.forall_mem_cons.2
      ⟨⟨kind, hts _ (by simp)⟩, ih fun t ht => hts t (by simp [ht])⟩
  | call callee left right ih => exact ih fun t ht => hts t (by simp [ht])
  | apply callee left arguments right ih ih' =>
    exact Expr.uses_call (ih fun t ht => hts t (by simp [ht]))
      (ih' fun t ht => hts t (by simp [ht]))
  | argument argument ih =>
    intro e he
    rw [Expr.subtermsAll, Expr.subtermsAll, List.append_nil] at he
    exact ih hts e he
  | moreArguments first comma others ih ih' =>
    exact List.forall_mem_append.2
      ⟨ih fun t ht => hts t (by simp [ht]), ih' fun t ht => hts t (by simp [ht])⟩
  | ofPrimary _ ih | ofFactorial _ ih | ofNegation _ ih | ofPower _ ih | ofProduct _ ih =>
    exact ih hts
  | bang operand mark ih | negate mark operand ih =>
    exact Expr.uses_snoc (ih fun t ht => hts t (by simp [ht])) trivial
  | raise left mark right ih ih' | multiply left mark right ih ih' | add left mark right ih ih' =>
    exact Expr.uses_binary (ih fun t ht => hts t (by simp [ht]))
      (ih' fun t ht => hts t (by simp [ht]))
  | juxtapose left apart start right ih ih' =>
    exact Expr.uses_binary (ih fun t ht => hts t (by simp [ht]))
      (ih' fun t ht => hts t (List.mem_append_right _ ht))

theorem DeclarationPhrase.uses {d : Declaration} (h : DeclarationPhrase ts d)
    (hts : ∀ t ∈ ts, P t) : ∀ e ∈ d.terms, e.Uses P := by
  intro e he
  obtain ⟨e', he', he⟩ := Expr.mem_subtermsAll.1 he
  obtain ⟨b, us, hus, phrase⟩ := h.exists_phrase he'
  exact phrase.uses (fun t ht => hts t (hus ht)) e he

end Parsing

/-! ## Known tokens resolve -/

variable {T : Type} {l : Library T}

theorem Library.isSome_called? {word name : String} {subscripted : Bool}
    (hname : name ∈ if subscripted then FunctionName.subscriptedNames word
      else FunctionName.plainNames word)
    (hl : (l.function? name).isSome = true) : (l.called? word subscripted).isSome = true :=
  List.findSome?_isSome_iff.2 ⟨name, hname, hl⟩

/-- A function name stands for a function, with a subscript or without one. -/
theorem Library.exists_called? {word : String} (h : l.isFunctionName word = true) :
    ∃ subscripted, (l.called? word subscripted).isSome = true := by
  obtain ⟨name, hname, hcanonical⟩ := List.any_eq_true.1 h
  have hl : (l.function? name).isSome = true := (l.functions.mem_names_iff name).1 hname
  cases hvariant : FunctionName.acceptsVariant name with
  | false =>
    refine ⟨false, isSome_called? ?_ hl⟩
    exact (FunctionName.isPlain_iff name word).1 (by simp [hvariant, hcanonical])
  | true =>
    refine ⟨true, isSome_called? ?_ hl⟩
    exact (FunctionName.isSubscripted_iff name word).1 (by simp [hvariant, hcanonical])

/-- A call of a function name can be wrong in its shape only. -/
theorem Library.callDefect?_cases {word : String} (h : l.isFunctionName word = true)
    {subscripted : Bool} {count : Nat} {error : CompileError}
    (hdefect : l.callDefect? word subscripted count = some error) :
    (∃ expected, error = .argumentCountMismatch word expected count) ∨
      error = .unexpectedVariant word ∨ error = .missingVariant word := by
  unfold callDefect? at hdefect
  split at hdefect
  · next f _ =>
    split at hdefect
    · cases hdefect
    · cases hdefect
      exact .inl ⟨f.arity, rfl⟩
  · next hown =>
    -- the word has a function of some kind, so it must be the other one
    obtain ⟨kind, hkind⟩ := exists_called? h
    have hother : (l.called? word !subscripted).isNone = false := by
      cases kind <;> cases subscripted <;> simp_all
    rw [hother] at hdefect
    cases subscripted <;> cases hdefect <;> simp

variable [Number T]

theorem Token.Known.defect_eq (decimals : Number.ReadsDecimals T) {t : Token}
    (h : t.Known l.vocabulary)
    (kind : t.kind = .number ∨ t.kind = .identifier ∨ t.kind = .constant) {params : List String}
    {error : CompileError} (hdefect : t.defect? l params = some error) :
    error = .undefinedIdentifier t.lexeme := by
  unfold Known at h
  unfold defect? at hdefect
  rcases kind with hk | hk | hk <;> rw [hk] at h hdefect
  · simp [decimals t.lexeme h] at hdefect
  · dsimp only at hdefect
    split at hdefect
    · cases hdefect
    · exact (Option.some.inj hdefect).symm
  · have hconstant : (l.constant? t.lexeme).isSome = true := h
    simp [hconstant] at hdefect

/-- Whether the error is about the use of a word or a sign, and not about what a word means. -/
def CompileError.isMisuse : CompileError → Bool
  | undefinedFunction _ | undefinedConstant _ | invalidLiteral _ => false
  | _ => true

theorem Expr.Uses.isMisuse (decimals : Number.ReadsDecimals T) {e : Expr}
    (h : e.Uses (Token.Known l.vocabulary)) {params : List String} {error : CompileError}
    (hdefect : e.defect? l params = some error) : error.isMisuse = true := by
  unfold Expr.defect? at hdefect
  split at hdefect
  · rw [h.2.defect_eq decimals h.1 hdefect]
    rfl
  · obtain ⟨hkind, hknown⟩ := h
    rw [Token.Known, hkind] at hknown
    obtain ⟨expected, rfl⟩ | rfl | rfl := Library.callDefect?_cases hknown hdefect <;> rfl
  · split at hdefect <;> cases hdefect
    rfl
  · cases hdefect

theorem Library.isMisuse_of_compile (decimals : Number.ReadsDecimals T) {source : String}
    {error : CompileError} (h : l.compile source = .error (.compile error)) :
    error.isMisuse = true := by
  obtain ⟨ts, d, hts, hd, herror⟩ := Library.compile_eq_error h
  have known := (declarationPhrase_of_parse hd).uses (Token.known_scan hts)
  have hfirst := ((d.reports_compile l).eq_error_iff error).1 herror
  obtain ⟨e, he, hdefect⟩ := List.exists_of_findSome?_eq_some hfirst
  exact (known e he).isMisuse decimals hdefect

/-- If decimals are numbers, the compilation of a source fails neither at a function nor at a
constant nor at a number, but only where a parameter is missing, a call has the wrong shape or there
is no factorial. -/
theorem scanned_names_resolve (decimals : Number.ReadsDecimals T) (l : Library T)
    (source : String) :
    (∀ name, l.compile source ≠ .error (.compile (.undefinedFunction name))) ∧
      (∀ name, l.compile source ≠ .error (.compile (.undefinedConstant name))) ∧
      (∀ lexeme, l.compile source ≠ .error (.compile (.invalidLiteral lexeme))) ∧
      ∀ error, l.compile source = .error (.compile error) →
        (∃ name, error = .undefinedIdentifier name) ∨
          (∃ name expected found, error = .argumentCountMismatch name expected found) ∨
          (∃ name, error = .unexpectedVariant name) ∨ (∃ name, error = .missingVariant name) ∨
          ∃ operator, error = .undefinedOperator operator := by
  refine ⟨fun name h => ?_, fun name h => ?_, fun lexeme h => ?_, fun error h => ?_⟩
  · cases l.isMisuse_of_compile decimals h
  · cases l.isMisuse_of_compile decimals h
  · cases l.isMisuse_of_compile decimals h
  · have misuse := l.isMisuse_of_compile decimals h
    cases error with
    | undefinedFunction | undefinedConstant | invalidLiteral => cases misuse
    | _ => simp

/-- Functions of the words `log` and `a_`, of which a source can only use the first. -/
def subscriptedLibrary : Library Float :=
  (Library.empty.addFunction "log_" 1 fun args => .ok (args.headD 0)).addFunction "a__" 1
    fun args => .ok (args.headD 0)

theorem scanned_names_resolve_missing_subscript :
    Number.ReadsDecimals Float ∧ Number.ReadsDecimals Float32 ∧
      subscriptedLibrary.compile "f(x) = 2.5log(x)" = .error (.compile (.missingVariant "log")) ∧
      ∀ name, subscriptedLibrary.compile "f(x) = 2.5log(x)" ≠
        .error (.compile (.undefinedFunction name)) :=
  ⟨readsDecimals_float, readsDecimals_float32, by with_unfolding_all rfl,
    (scanned_names_resolve readsDecimals_float _ _).1⟩

end Formula
