import Formula.Proofs.Tiling
import Formula.Proofs.Vocabulary

/-!
# Entries that a source does not mention

A source can only tell libraries apart by the words in it: its maximal runs of letters, whether the
library takes them as names or not. Two libraries that agree on these words, on what stands in for
`|x|` and `x!` and on the operators make the same of the source, be it an error or a function.

## Main definitions

* `Mentions` — the words of a source.
* `Library.AgreeOn` — libraries that cannot be told apart by some words.

## Main statements

* `Library.AgreeOn.compile_eq` — agreement on the words of a source is enough.
* `compile_ignores_unmentioned` — a registration that the source does not mention changes nothing.
-/

namespace Formula

/-- The word is a maximal run of letters of the source. -/
def Mentions (source word : String) : Prop :=
  ∃ before after, source.toList = before ++ word.toList ++ after ∧
    MaximalRun Char.isAlpha before word.toList after

theorem mentions_iff {source word : String} :
    Mentions source word ↔ Lexeme.word word.toList ∈ Lexeme.split source.toList := by
  constructor
  · rintro ⟨before, after, hsource, hrun⟩
    rw [hsource, Lexeme.split_of_maximalRun hrun]
    simp
  · intro h
    obtain ⟨xs, ys, hsplit⟩ := List.append_of_mem h
    obtain ⟨before, after, hsource, -, -, hrun⟩ := Lexeme.maximalRun_of_split hsplit
    exact ⟨before, after, hsource, hrun⟩

instance (source word : String) : Decidable (Mentions source word) :=
  decidable_of_iff _ mentions_iff.symm

theorem Token.kind_of_mem_letters {offset : Nat} {w : List Char} {t : Token}
    (h : t ∈ Token.letters offset w) : t.kind = .identifier := by
  induction w generalizing offset with
  | nil => cases h
  | cons c w ih =>
    rcases List.mem_cons.1 h with rfl | h
    · rfl
    · exact ih h

/-- The token is no function and no constant, or is one of the words. -/
def Token.Within (words : String → Prop) (t : Token) : Prop :=
  t.kind = .function ∨ t.kind = .constant → words t.lexeme

theorem Token.within_scan {v : Vocabulary} {source : String} {ts : List Token}
    (h : Token.scan v source = .ok ts) : ∀ t ∈ ts, t.Within (Mentions source) := by
  intro t ht hkind
  obtain ⟨before, w, after, hsource, hrun, ht⟩ := exists_word h ht (by grind)
  have hlexeme : t.lexeme = String.ofList w := by
    unfold ofWord at ht
    have := @kind_of_mem_letters (byteSize before) w t
    grind
  rw [hlexeme]
  exact ⟨before, after, by simpa using hsource, by simpa using hrun⟩

variable {T : Type}

/-- The libraries give the words the same functions and constants, and have the same operators. -/
structure Library.AgreeOn (words : String → Prop) (l l' : Library T) : Prop where
  function : ∀ name, words (FunctionName.canonical name) ∨ name = "abs" ∨ name = "fac" →
    l.function? name = l'.function? name
  constant : ∀ name, words name → l.constant? name = l'.constant? name
  binary : l.binary = l'.binary
  unary : l.unary = l'.unary

namespace Library.AgreeOn

variable {words : String → Prop} {l l' : Library T}

theorem isFunction_eq (h : l.AgreeOn words l') {word : String} (hword : words word) :
    l.vocabulary.isFunction word = l'.vocabulary.isFunction word := by
  have registered (m : Library T) : m.vocabulary.isFunction word = true ↔
      ∃ name, (m.function? name).isSome = true ∧ FunctionName.canonical name = word := by
    simp only [vocabulary, isFunctionName, List.any_eq_true, beq_iff_eq]
    exact exists_congr fun name => and_congr_left' (m.functions.mem_names_iff name)
  rw [Bool.eq_iff_iff, registered, registered]
  refine exists_congr fun name => and_congr_left fun hname => ?_
  rw [h.function name (.inl (hname ▸ hword))]

theorem isConstant_eq (h : l.AgreeOn words l') {word : String} (hword : words word) :
    l.vocabulary.isConstant word = l'.vocabulary.isConstant word :=
  congrArg Option.isSome (h.constant word hword)

theorem tokens_eq (h : l.AgreeOn words l') {lexeme : Lexeme} (offset : Nat)
    (hwords : ∀ w, lexeme = .word w → words (String.ofList w)) :
    lexeme.tokens l.vocabulary offset = lexeme.tokens l'.vocabulary offset := by
  cases lexeme with
  | word w =>
    have hword := hwords w rfl
    simp only [Lexeme.tokens, Token.ofWord, h.isFunction_eq hword, h.isConstant_eq hword]
  | _ => rfl

theorem allTokens_eq (h : l.AgreeOn words l') {ls : List Lexeme} (offset : Nat)
    (hwords : ∀ w, .word w ∈ ls → words (String.ofList w)) :
    Lexeme.allTokens l.vocabulary offset ls = Lexeme.allTokens l'.vocabulary offset ls := by
  induction ls generalizing offset with
  | nil => rfl
  | cons first ls ih =>
    rw [Lexeme.allTokens, Lexeme.allTokens, h.tokens_eq offset (by grind), ih _ (by grind)]

theorem scan_eq {source : String} (h : l.AgreeOn (Mentions source) l') :
    Token.scan l.vocabulary source = Token.scan l'.vocabulary source :=
  h.allTokens_eq 0 fun w hw => mentions_iff.2 (by simpa using hw)

/-! ## Resolution -/

theorem findSome?_entry?_eq {names : List String}
    (h : ∀ name ∈ names, l.function? name = l'.function? name) :
    names.findSome? l.entry? = names.findSome? l'.entry? := by
  induction names with
  | nil => rfl
  | cons name names ih =>
    obtain ⟨hname, hnames⟩ := List.forall_mem_cons.1 h
    simp only [List.findSome?_cons, entry?, hname, ih hnames]

theorem callee?_eq (h : l.AgreeOn words l') {word : String} (hword : words word)
    (subscripted : Bool) : l.callee? word subscripted = l'.callee? word subscripted := by
  refine findSome?_entry?_eq fun name hname => h.function name (.inl ?_)
  rwa [(FunctionName.canonical_of_mem hname).2]

section Scopes

variable {params : List String}

theorem function_eq (h : l.AgreeOn words l') {word : String} (hword : words word)
    (subscripted : Bool) (count : Nat) :
    Scope.function { params, library := l } word subscripted count =
      Scope.function { params, library := l' } word subscripted count := by
  simp only [Scope.function_eq, h.callee?_eq hword]

theorem unaryFunction?_eq (h : l.AgreeOn words l') {word : String}
    (hword : word = "abs" ∨ word = "fac") :
    Scope.unaryFunction? { params, library := l } word =
      Scope.unaryFunction? { params, library := l' } word := by
  have hnames : FunctionName.plainNames word = [word] := by
    rcases hword with rfl | rfl <;> rfl
  rw [Scope.unaryFunction?, Scope.unaryFunction?, Scope.plainFunction?_eq, Scope.plainFunction?_eq,
    hnames, findSome?_entry?_eq (by simpa using h.function word (.inr hword))]

theorem resolveAbs_eq (h : l.AgreeOn words l') (node : Node T) :
    Scope.resolveAbs { params, library := l } node =
      Scope.resolveAbs { params, library := l' } node := by
  unfold Scope.resolveAbs
  dsimp only
  rw [h.unary, h.unaryFunction?_eq (.inl rfl)]

theorem resolveUnary_eq (h : l.AgreeOn words l') (op : UnaryOp) (node : Node T) :
    Scope.resolveUnary { params, library := l } op node =
      Scope.resolveUnary { params, library := l' } op node := by
  unfold Scope.resolveUnary Scope.resolveNegate Scope.resolveFactorial
  dsimp only
  rw [h.unary, h.unaryFunction?_eq (.inr rfl)]

theorem resolveBinary_eq (h : l.AgreeOn words l') (op : BinaryOp) (left right : Node T) :
    Scope.resolveBinary { params, library := l } op left right =
      Scope.resolveBinary { params, library := l' } op left right := by
  unfold Scope.resolveBinary
  dsimp only
  rw [h.binary]

variable [Number T]

theorem resolveLiteral_eq (h : l.AgreeOn words l') {t : Token} (ht : t.Within words) :
    Scope.resolveLiteral { params, library := l } t =
      Scope.resolveLiteral { params, library := l' } t := by
  unfold Scope.resolveLiteral
  split
  · rfl
  · next hkind =>
    unfold Scope.constant
    dsimp only
    rw [h.constant _ (ht (.inr hkind))]
  · rfl
  · rfl

mutual

theorem resolve_eq (h : l.AgreeOn words l') : ∀ e : Expr,
    (∀ e' ∈ e.subterms .before, e'.Uses (Token.Within words)) →
      Scope.resolve { params, library := l } e = Scope.resolve { params, library := l' } e
  | .literal t, huses => by
    have ht : (Expr.literal t).Uses (Token.Within words) := List.forall_mem_singleton.1 huses
    rw [Scope.resolve, Scope.resolve, h.resolveLiteral_eq ht.2]
  | .group e, huses => by
    obtain ⟨he, -⟩ := List.forall_mem_append.1 huses
    rw [Scope.resolve, Scope.resolve, h.resolve_eq e he]
  | .abs e, huses => by
    obtain ⟨he, -⟩ := List.forall_mem_append.1 huses
    simp only [Scope.resolve, h.resolve_eq e he, h.resolveAbs_eq]
  | .call name variant args, huses => by
    obtain ⟨hname, hparts⟩ := List.forall_mem_cons.1 huses
    obtain ⟨hargs, hvariant⟩ := List.forall_mem_append.1 hparts
    rw [Scope.resolve, Scope.resolve, h.function_eq (hname.2 (.inl hname.1)),
      h.resolveAll_eq args hargs, h.resolveOption_eq variant hvariant]
  | .unary op e, huses => by
    obtain ⟨he, -⟩ := List.forall_mem_append.1 huses
    simp only [Scope.resolve, h.resolve_eq e he, h.resolveUnary_eq]
  | .binary op left right, huses => by
    obtain ⟨hparts, -⟩ := List.forall_mem_append.1 huses
    obtain ⟨hleft, hright⟩ := List.forall_mem_append.1 hparts
    simp only [Scope.resolve, h.resolve_eq left hleft, h.resolve_eq right hright,
      h.resolveBinary_eq]

theorem resolveOption_eq (h : l.AgreeOn words l') : ∀ e : Option Expr,
    (∀ e' ∈ Expr.subtermsOption .before e, e'.Uses (Token.Within words)) →
      Scope.resolveOption { params, library := l } e =
        Scope.resolveOption { params, library := l' } e
  | none, _ => rfl
  | some e, huses => by
    rw [Scope.resolveOption, Scope.resolveOption, h.resolve_eq e huses]

theorem resolveAll_eq (h : l.AgreeOn words l') : ∀ es : List Expr,
    (∀ e' ∈ Expr.subtermsAll .before es, e'.Uses (Token.Within words)) →
      Scope.resolveAll { params, library := l } es = Scope.resolveAll { params, library := l' } es
  | [], _ => rfl
  | e :: es, huses => by
    obtain ⟨he, hes⟩ := List.forall_mem_append.1 huses
    rw [Scope.resolveAll, Scope.resolveAll, h.resolve_eq e he, h.resolveAll_eq es hes]

end

theorem resolveClause_eq (h : l.AgreeOn words l') (c : Clause)
    (huses : ∀ e ∈ Expr.subtermsAll .before c.operands, e.Uses (Token.Within words)) :
    Scope.resolveClause { params, library := l } c =
      Scope.resolveClause { params, library := l' } c := by
  induction c with
  | compare left op right =>
    obtain ⟨hleft, hrest⟩ := List.forall_mem_append.1 huses
    obtain ⟨hright, -⟩ := List.forall_mem_append.1 hrest
    rw [Scope.resolveClause, Scope.resolveClause, h.resolve_eq left hleft,
      h.resolve_eq right hright]
  | chain previous op right ih =>
    rw [Clause.operands, Expr.subtermsAll_append] at huses
    obtain ⟨hprevious, hrest⟩ := List.forall_mem_append.1 huses
    obtain ⟨hright, -⟩ := List.forall_mem_append.1 hrest
    rw [Scope.resolveClause, Scope.resolveClause, ih hprevious, h.resolve_eq right hright]

theorem resolveClauses_eq (h : l.AgreeOn words l') (cs : List Clause)
    (huses : ∀ e ∈ Expr.subtermsAll .before (cs.flatMap Clause.operands),
      e.Uses (Token.Within words)) :
    Scope.resolveClauses { params, library := l } cs =
      Scope.resolveClauses { params, library := l' } cs := by
  induction cs with
  | nil => rfl
  | cons c cs ih =>
    rw [List.flatMap_cons, Expr.subtermsAll_append] at huses
    obtain ⟨hc, hcs⟩ := List.forall_mem_append.1 huses
    rw [Scope.resolveClauses, Scope.resolveClauses, h.resolveClause_eq c hc, ih hcs]

end Scopes

variable [Number T]

theorem declaration_eq (h : l.AgreeOn words l') {d : Declaration}
    (huses : ∀ e ∈ d.terms, e.Uses (Token.Within words)) : d.compile l = d.compile l' := by
  obtain ⟨hbody, hclauses⟩ := List.forall_mem_append.1 huses
  unfold Declaration.compile
  dsimp only
  rw [h.resolve_eq d.body hbody, h.resolveClauses_eq d.clauses hclauses]

/-- A source is compiled alike by libraries that agree on its words. -/
theorem compile_eq {source : String} (h : l.AgreeOn (Mentions source) l') :
    l.compile source = l'.compile source := by
  unfold Library.compile Library.read
  rw [h.scan_eq]
  cases hts : Token.scan l'.vocabulary source with
  | error e => rfl
  | ok ts =>
    show ((Declaration.parse ts).mapError Error.parse >>=
        fun d => (d.compile l).mapError .compile) =
      (Declaration.parse ts).mapError Error.parse >>= fun d => (d.compile l').mapError .compile
    cases hd : Declaration.parse ts with
    | error e => rfl
    | ok d =>
      have huses := (declarationPhrase_of_parse hd).uses (Token.within_scan hts)
      exact congrArg (Except.mapError Error.compile) (h.declaration_eq huses)

end Library.AgreeOn

/-! ## Registrations -/

namespace Library

theorem agreeOn_addFunction {words : String → Prop} (l : Library T) {name : String}
    (hname : ¬ words (FunctionName.canonical name)) (habs : name ≠ "abs") (hfac : name ≠ "fac")
    (arity : Nat) (apply : List T → Except MissingArgument T) :
    (l.addFunction name arity apply).AgreeOn words l := by
  refine ⟨fun other hother => ?_, fun _ _ => rfl, rfl, rfl⟩
  have hne : other ≠ name := by
    rintro rfl
    grind
  rw [function?_addFunction, if_neg hne]

theorem agreeOn_addConstant {words : String → Prop} (l : Library T) {name : String}
    (hname : ¬ words name) (value : T) : (l.addConstant name value).AgreeOn words l := by
  refine ⟨fun _ _ => rfl, fun other hother => ?_, rfl, rfl⟩
  have hne : other ≠ name := by
    rintro rfl
    exact hname hother
  rw [constant?_addConstant, if_neg hne]

end Library

/-- A function or a constant that the source does not mention changes neither the error of the
source nor the function it gives. Without being mentioned, `abs` and `fac` have a say in what `|x|`
and `x!` are. -/
theorem compile_ignores_unmentioned [Number T] (l : Library T) (source : String) :
    (∀ name arity apply, ¬ Mentions source (FunctionName.canonical name) → name ≠ "abs" →
      name ≠ "fac" → (l.addFunction name arity apply).compile source = l.compile source) ∧
    ∀ name value, ¬ Mentions source name →
      (l.addConstant name value).compile source = l.compile source :=
  ⟨fun _ arity apply hname habs hfac =>
    (l.agreeOn_addFunction hname habs hfac arity apply).compile_eq,
    fun _ value hname => (l.agreeOn_addConstant hname value).compile_eq⟩

/-- In `sinx`, `sin` is not mentioned: with a function or a constant of that name there are still
only letters, which are parameters or else nothing. -/
theorem compile_ignores_unmentioned_stem :
    let l : Library Float := Library.empty
    let l₁ := l.addFunction "sin" 1 fun args => .ok (args.headD 0)
    let l₂ := l.addConstant "sin" 0
    (¬ Mentions "f(s, i, n, x) = sinx" "sin" ∧ ∃ f, l.compile "f(s, i, n, x) = sinx" = .ok f ∧
      l₁.compile "f(s, i, n, x) = sinx" = .ok f ∧ l₂.compile "f(s, i, n, x) = sinx" = .ok f) ∧
    ¬ Mentions "f(x) = sinx" "sin" ∧
      l.compile "f(x) = sinx" = .error (.compile (.undefinedIdentifier "s")) ∧
      l₁.compile "f(x) = sinx" = .error (.compile (.undefinedIdentifier "s")) ∧
      l₂.compile "f(x) = sinx" = .error (.compile (.undefinedIdentifier "s")) := by
  intro l l₁ l₂
  have same {source : String} (h : ¬ Mentions source "sin") :
      l₁.compile source = l.compile source ∧ l₂.compile source = l.compile source := by
    obtain ⟨functions, constants⟩ := compile_ignores_unmentioned l source
    exact ⟨functions "sin" _ _ h (by decide) (by decide), constants "sin" _ h⟩
  constructor
  · have unmentioned : ¬ Mentions "f(s, i, n, x) = sinx" "sin" := by with_unfolding_all decide
    obtain ⟨f, hf⟩ : ∃ f, l.compile "f(s, i, n, x) = sinx" = .ok f :=
      ⟨_, by with_unfolding_all rfl⟩
    obtain ⟨h₁, h₂⟩ := same unmentioned
    exact ⟨unmentioned, f, hf, h₁.trans hf, h₂.trans hf⟩
  · have unmentioned : ¬ Mentions "f(x) = sinx" "sin" := by with_unfolding_all decide
    have undefined : l.compile "f(x) = sinx" = .error (.compile (.undefinedIdentifier "s")) := by
      with_unfolding_all rfl
    obtain ⟨h₁, h₂⟩ := same unmentioned
    exact ⟨unmentioned, undefined, h₁.trans undefined, h₂.trans undefined⟩

end Formula
