import Formula.Proofs.Traversal

/-!
# The grammar

The grammar of declarations as relations between token lists and trees. A pipe may open or close an
absolute value, so a phrase of an expression carries two flags: whether an absolute value is open on
its nesting level, and whether its own last token closes one on that level. The first forbids that
a juxtaposed operand starts with a pipe, the second that an operand is juxtaposed to a pipe which
has just been closed.

## Main definitions

* `AdditiveMark`, `MultiplicativeMark`, `ComparisonMark` — the operators that tokens stand for.
* `Phrase` — the token lists of expressions.
* `ClausePhrase`, `GuardPhrase`, `DeclarationPhrase` — those of clauses, guards and declarations.
-/

namespace Formula

/-! ## Marks -/

/-- The marks between the terms of a sum, and what they stand for. -/
inductive AdditiveMark : TokenKind → BinaryOp → Prop where
  | plus : AdditiveMark .plus .add
  | minus : AdditiveMark .minus .sub

/-- The marks between the factors of a product. -/
inductive MultiplicativeMark : TokenKind → BinaryOp → Prop where
  | star : MultiplicativeMark .star .mul
  | slash : MultiplicativeMark .slash .div
  | percent : MultiplicativeMark .percent .mod

/-- The marks between the operands of a clause. -/
inductive ComparisonMark : TokenKind → Comparison → Prop where
  | greater : ComparisonMark .greater .greater
  | greaterEqual : ComparisonMark .greaterEqual .greaterEqual
  | less : ComparisonMark .less .less
  | lessEqual : ComparisonMark .lessEqual .lessEqual
  | equal : ComparisonMark .equal .equal

/-- The kinds of token with which a factor starts that has no mark before it. A pipe is one of them
only where no absolute value is open. -/
inductive UnmarkedStart (isOpen : Bool) : TokenKind → Prop where
  | number : UnmarkedStart isOpen .number
  | identifier : UnmarkedStart isOpen .identifier
  | constant : UnmarkedStart isOpen .constant
  | parenOpen : UnmarkedStart isOpen .parenOpen
  | function : UnmarkedStart isOpen .function
  | pipe (closed : isOpen = false) : UnmarkedStart isOpen .pipe

/-! ## Phrases -/

/-- The syntactic categories of expressions, from the weakest to the strongest binding. A callee is
the name of a function with its subscript, before the arguments. -/
inductive Category where
  | sum
  | product
  | power
  | negation
  | factorial
  | primary
  | callee
  | arguments
deriving DecidableEq, Repr

/-- The token lists of a category. The tree of a callee is its call without arguments, and the tree
of arguments is the call they belong to. -/
inductive Phrase : Category → (isOpen closes : Bool) → List Token → Expr → Prop where
  | literal {o : Bool} {t : Token}
      (kind : t.kind = .number ∨ t.kind = .identifier ∨ t.kind = .constant) :
      Phrase .primary o false [t] (.literal t)
  | group {o b : Bool} {l r : Token} {ts : List Token} {e : Expr} (left : l.kind = .parenOpen)
      (inner : Phrase .sum false b ts e) (right : r.kind = .parenClose) :
      Phrase .primary o false (l :: (ts ++ [r])) (.group e)
  | abs {o b : Bool} {l r : Token} {ts : List Token} {e : Expr} (left : l.kind = .pipe)
      (inner : Phrase .sum true b ts e) (right : r.kind = .pipe) :
      Phrase .primary o true (l :: (ts ++ [r])) (.abs e)
  | callee {o : Bool} {f : Token} (kind : f.kind = .function) :
      Phrase .callee o false [f] (.call f none [])
  | subscript {o b : Bool} {f u : Token} {ts : List Token} {v : Expr} (kind : f.kind = .function)
      (mark : u.kind = .underscore) (variant : Phrase .primary false b ts v) :
      Phrase .callee o false (f :: u :: ts) (.call f (some v) [])
  | call {o : Bool} {f l r : Token} {v : Option Expr} {hs : List Token}
      (callee : Phrase .callee o false hs (.call f v [])) (left : l.kind = .parenOpen)
      (right : r.kind = .parenClose) :
      Phrase .primary o false (hs ++ [l, r]) (.call f v [])
  | apply {o b : Bool} {f l r : Token} {v : Option Expr} {args : List Expr} {hs ts : List Token}
      (callee : Phrase .callee o false hs (.call f v [])) (left : l.kind = .parenOpen)
      (arguments : Phrase .arguments false b ts (.call f v args)) (right : r.kind = .parenClose) :
      Phrase .primary o false (hs ++ l :: (ts ++ [r])) (.call f v args)
  | argument {b : Bool} {f : Token} {v : Option Expr} {ts : List Token} {e : Expr}
      (argument : Phrase .sum false b ts e) :
      Phrase .arguments false b ts (.call f v [e])
  | moreArguments {b b' : Bool} {f s : Token} {v : Option Expr} {ts us : List Token} {e : Expr}
      {es : List Expr} (first : Phrase .sum false b ts e) (comma : s.kind = .comma)
      (others : Phrase .arguments false b' us (.call f v es)) :
      Phrase .arguments false b' (ts ++ s :: us) (.call f v (e :: es))
  | ofPrimary {o b : Bool} {ts : List Token} {e : Expr} (primary : Phrase .primary o b ts e) :
      Phrase .factorial o b ts e
  | bang {o b : Bool} {t : Token} {ts : List Token} {e : Expr}
      (operand : Phrase .factorial o b ts e) (mark : t.kind = .bang) :
      Phrase .factorial o false (ts ++ [t]) (.unary .factorial e)
  | ofFactorial {o b : Bool} {ts : List Token} {e : Expr} (factorial : Phrase .factorial o b ts e) :
      Phrase .negation o b ts e
  | negate {o b : Bool} {t : Token} {ts : List Token} {e : Expr} (mark : t.kind = .minus)
      (operand : Phrase .negation o b ts e) :
      Phrase .negation o b (t :: ts) (.unary .negate e)
  | ofNegation {o b : Bool} {ts : List Token} {e : Expr} (negation : Phrase .negation o b ts e) :
      Phrase .power o b ts e
  | raise {o b b' : Bool} {t : Token} {ts us : List Token} {l r : Expr}
      (base : Phrase .negation o b ts l) (mark : t.kind = .caret)
      (exponent : Phrase .power false b' us r) :
      Phrase .power o false (ts ++ t :: us) (.binary .pow l r)
  | ofPower {o b : Bool} {ts : List Token} {e : Expr} (power : Phrase .power o b ts e) :
      Phrase .product o b ts e
  | multiply {o b b' : Bool} {t : Token} {ts us : List Token} {op : BinaryOp} {l r : Expr}
      (left : Phrase .product o b ts l) (mark : MultiplicativeMark t.kind op)
      (right : Phrase .power false b' us r) :
      Phrase .product o false (ts ++ t :: us) (.binary op l r)
  /-- An operand directly after another one. -/
  | juxtapose {o b b' : Bool} {t : Token} {ts us : List Token} {l r : Expr}
      (left : Phrase .product o b ts l) (apart : o = true → b = false)
      (start : UnmarkedStart o t.kind)
      (right : Phrase .power o b' (t :: us) r) :
      Phrase .product o b' (ts ++ t :: us) (.binary .mul l r)
  | ofProduct {o b : Bool} {ts : List Token} {e : Expr} (product : Phrase .product o b ts e) :
      Phrase .sum o b ts e
  | add {o b b' : Bool} {t : Token} {ts us : List Token} {op : BinaryOp} {l r : Expr}
      (left : Phrase .sum o b ts l) (mark : AdditiveMark t.kind op)
      (right : Phrase .product o b' us r) :
      Phrase .sum o b' (ts ++ t :: us) (.binary op l r)

theorem Phrase.power_of_primary {o b : Bool} {ts : List Token} {e : Expr}
    (h : Phrase .primary o b ts e) : Phrase .power o b ts e :=
  .ofNegation (.ofFactorial (.ofPrimary h))

theorem Phrase.sum_of_power {o b : Bool} {ts : List Token} {e : Expr}
    (h : Phrase .power o b ts e) : Phrase .sum o b ts e :=
  .ofProduct (.ofPower h)

/-- One or more items with commas between them. -/
inductive Separated {α : Type} (Item : List Token → α → Prop) :
    List Token → List α → Prop where
  | one {ts : List Token} {a : α} (item : Item ts a) : Separated Item ts [a]
  | more {s : Token} {ts us : List Token} {a : α} {as : List α} (item : Item ts a)
      (comma : s.kind = .comma) (others : Separated Item us as) :
      Separated Item (ts ++ s :: us) (a :: as)

theorem Separated.arguments {ts : List Token} {es : List Expr}
    (h : Separated (fun ts e => ∃ b, Phrase .sum false b ts e) ts es) (f : Token)
    (v : Option Expr) : ∃ b, Phrase .arguments false b ts (.call f v es) := by
  induction h with
  | one item =>
    obtain ⟨b, phrase⟩ := item
    exact ⟨b, .argument phrase⟩
  | more item comma _ ih =>
    obtain ⟨_, phrase⟩ := item
    obtain ⟨b, others⟩ := ih
    exact ⟨b, .moreArguments phrase comma others⟩

theorem Separated.append {α : Type} {Item : List Token → α → Prop} {ts us : List Token}
    {as bs : List α} {t : Token} (h : Separated Item ts as) (comma : t.kind = .comma)
    (h' : Separated Item us bs) : Separated Item (ts ++ t :: us) (as ++ bs) := by
  induction h with
  | one item => exact .more item comma h'
  | more item comma' _ ih =>
    rw [List.append_assoc]
    exact .more item comma' ih

theorem Separated.ne_nil {α : Type} {Item : List Token → α → Prop} {ts : List Token}
    {as : List α} (h : Separated Item ts as) : as ≠ [] := by
  cases h <;> simp

/-- Items put together with commas, in whichever way this is done. -/
theorem Separated.of_join {α β : Type} {Item : List Token → β → Prop} {tokens : α → List Token}
    {value : α → β} {t : Token} (comma : t.kind = .comma) (join : List α → List Token)
    {as : List α} (hne : as ≠ []) (h : ∀ a ∈ as, Item (tokens a) (value a))
    (one : ∀ a, join [a] = tokens a)
    (more : ∀ a b as, join (a :: b :: as) = tokens a ++ t :: join (b :: as)) :
    Separated Item (join as) (as.map value) := by
  induction as with
  | nil => exact absurd rfl hne
  | cons a as ih =>
    have item := h a List.mem_cons_self
    cases as with
    | nil =>
      rw [one]
      exact .one item
    | cons b as =>
      have others := ih (by simp) fun c hc => h c (List.mem_cons_of_mem a hc)
      rw [more]
      exact .more item comma others

/-- A chain of comparisons; both sides of each are read on a level of their own. -/
inductive ClausePhrase : List Token → Clause → Prop where
  | compare {b b' : Bool} {t : Token} {ts us : List Token} {op : Comparison} {l r : Expr}
      (left : Phrase .sum false b ts l) (mark : ComparisonMark t.kind op)
      (right : Phrase .sum false b' us r) :
      ClausePhrase (ts ++ t :: us) (.compare l op r)
  | chain {b : Bool} {t : Token} {ts us : List Token} {op : Comparison} {c : Clause} {r : Expr}
      (previous : ClausePhrase ts c) (mark : ComparisonMark t.kind op)
      (right : Phrase .sum false b us r) :
      ClausePhrase (ts ++ t :: us) (.chain c op r)

inductive GuardPhrase : List Token → List Clause → Prop where
  | block {l r : Token} {ts : List Token} {cs : List Clause} (left : l.kind = .braceOpen)
      (clauses : Separated ClausePhrase ts cs) (right : r.kind = .braceClose) :
      GuardPhrase (l :: (ts ++ [r])) cs

def ParameterPhrase (ts : List Token) (t : Token) : Prop :=
  ts = [t] ∧ t.kind = .identifier

/-- The name and the parameters of a declaration, up to the equals sign. -/
inductive HeaderPhrase : List Token → Token → List Token → Prop where
  | constant {name l r eq : Token} (kind : name.kind = .identifier) (left : l.kind = .parenOpen)
      (right : r.kind = .parenClose) (equal : eq.kind = .equal) :
      HeaderPhrase [name, l, r, eq] name []
  | function {name l r eq : Token} {ts params : List Token} (kind : name.kind = .identifier)
      (left : l.kind = .parenOpen) (list : Separated ParameterPhrase ts params)
      (right : r.kind = .parenClose) (equal : eq.kind = .equal) :
      HeaderPhrase (name :: l :: (ts ++ [r, eq])) name params

/-- A declaration, with a guard before its body, after it, or nowhere. -/
inductive DeclarationPhrase : List Token → Declaration → Prop where
  | total {b : Bool} {hs ts params : List Token} {name : Token} {body : Expr}
      (header : HeaderPhrase hs name params) (expr : Phrase .sum false b ts body) :
      DeclarationPhrase (hs ++ ts) { name, params, body, clauses := [] }
  | guardFirst {b : Bool} {hs gs ts params : List Token} {name : Token} {body : Expr}
      {clauses : List Clause} (header : HeaderPhrase hs name params)
      (block : GuardPhrase gs clauses) (expr : Phrase .sum false b ts body) :
      DeclarationPhrase (hs ++ (gs ++ ts)) { name, params, body, clauses }
  | guardLast {b : Bool} {hs gs ts params : List Token} {name : Token} {body : Expr}
      {clauses : List Clause} (header : HeaderPhrase hs name params)
      (expr : Phrase .sum false b ts body) (block : GuardPhrase gs clauses) :
      DeclarationPhrase (hs ++ (ts ++ gs)) { name, params, body, clauses }

/-! ## Marks and operators -/

theorem ofAdditive?_eq_some_iff {kind : TokenKind} {op : BinaryOp} :
    BinaryOp.ofAdditive? kind = some op ↔ AdditiveMark kind op := by
  constructor
  · intro h
    cases kind <;> cases h <;> constructor
  · rintro (_ | _) <;> rfl

theorem ofMultiplicative?_eq_some_iff {kind : TokenKind} {op : BinaryOp} :
    BinaryOp.ofMultiplicative? kind = some op ↔ MultiplicativeMark kind op := by
  constructor
  · intro h
    cases kind <;> cases h <;> constructor
  · rintro (_ | _ | _) <;> rfl

theorem ofKind?_eq_some_iff {kind : TokenKind} {op : Comparison} :
    Comparison.ofKind? kind = some op ↔ ComparisonMark kind op := by
  constructor
  · intro h
    cases kind <;> cases h <;> constructor
  · rintro (_ | _ | _ | _ | _) <;> rfl

theorem ComparisonMark.isComparison {kind : TokenKind} {op : Comparison}
    (h : ComparisonMark kind op) : kind.isComparison = true := by
  rw [← Comparison.isSome_ofKind?, ofKind?_eq_some_iff.2 h, Option.isSome_some]

theorem unmarkedStart_iff {isOpen : Bool} {kind : TokenKind} :
    UnmarkedStart isOpen kind ↔
      kind.startsImplicitOperand = true ∨ kind = .pipe ∧ isOpen = false := by
  constructor
  · rintro (_ | _ | _ | _ | _ | closed)
    case pipe => exact .inr ⟨rfl, closed⟩
    all_goals exact .inl rfl
  · rintro (h | ⟨rfl, closed⟩)
    · cases kind <;> cases h <;> constructor
    · exact .pipe closed

/-! ## The phrases of a declaration -/

theorem Separated.exists_item {α : Type} {Item : List Token → α → Prop} {ts : List Token}
    {as : List α} (h : Separated Item ts as) {a : α} (ha : a ∈ as) : ∃ us, us ⊆ ts ∧ Item us a := by
  induction h with
  | one item =>
    rw [List.mem_singleton.1 ha]
    exact ⟨_, List.Subset.refl _, item⟩
  | more item _ _ ih =>
    rcases List.mem_cons.1 ha with rfl | ha
    · exact ⟨_, List.subset_append_left _ _, item⟩
    · obtain ⟨us, hus, hitem⟩ := ih ha
      refine ⟨us, fun t ht => ?_, hitem⟩
      exact List.mem_append_right _ (List.mem_cons_of_mem _ (hus ht))

theorem ClausePhrase.exists_phrase {ts : List Token} {c : Clause} (h : ClausePhrase ts c) {e : Expr}
    (he : e ∈ c.operands) : ∃ b us, us ⊆ ts ∧ Phrase .sum false b us e := by
  induction h with
  | compare left _ right =>
    rcases List.mem_cons.1 he with rfl | he
    · exact ⟨_, _, by simp, left⟩
    · rw [List.mem_singleton.1 he]
      exact ⟨_, _, by simp, right⟩
  | chain _ _ right ih =>
    rcases List.mem_append.1 he with he | he
    · obtain ⟨b, us, hus, phrase⟩ := ih he
      exact ⟨b, us, fun t ht => by simp [hus ht], phrase⟩
    · rw [List.mem_singleton.1 he]
      exact ⟨_, _, by simp, right⟩

theorem GuardPhrase.exists_phrase {ts : List Token} {cs : List Clause} (h : GuardPhrase ts cs)
    {e : Expr} (he : e ∈ cs.flatMap Clause.operands) :
    ∃ b us, us ⊆ ts ∧ Phrase .sum false b us e := by
  obtain ⟨_, clauses, _⟩ := h
  obtain ⟨c, hc, he⟩ := List.mem_flatMap.1 he
  obtain ⟨vs, hvs, clause⟩ := clauses.exists_item hc
  obtain ⟨b, us, hus, phrase⟩ := clause.exists_phrase he
  exact ⟨b, us, fun t ht => by simp [hvs (hus ht)], phrase⟩

/-- Each expression of a declaration has a phrase among the tokens of the declaration. -/
theorem DeclarationPhrase.exists_phrase {ts : List Token} {d : Declaration}
    (h : DeclarationPhrase ts d) {e : Expr} (he : e ∈ d.expressions) :
    ∃ b us, us ⊆ ts ∧ Phrase .sum false b us e := by
  cases h with
  | total _ expr =>
    rw [List.mem_singleton.1 he]
    exact ⟨_, _, by simp, expr⟩
  | guardFirst _ block expr | guardLast _ expr block =>
    rcases List.mem_cons.1 he with rfl | he
    · exact ⟨_, _, fun t ht => by simp [ht], expr⟩
    · obtain ⟨b, us, hus, phrase⟩ := block.exists_phrase he
      exact ⟨b, us, fun t ht => by simp [hus ht], phrase⟩

/-! ## The first token of a phrase -/

/-- The kinds of token with which an operand without a sign starts. -/
def TokenKind.startsOperand : TokenKind → Bool
  | .number | .identifier | .constant | .parenOpen | .pipe | .function => true
  | _ => false

/-- The kinds of token with which a phrase of the category starts. -/
def Category.startsWith : Category → TokenKind → Bool
  | .factorial, kind | .primary, kind | .callee, kind => kind.startsOperand
  | _, kind => kind.startsOperand || kind == .minus

theorem Category.startsWith_of_operand (k : Category) {kind : TokenKind}
    (h : kind.startsOperand = true) : k.startsWith kind = true := by
  cases k <;> simp [startsWith, h]

theorem Phrase.starts {k : Category} {o b : Bool} {ts : List Token} {e : Expr}
    (h : Phrase k o b ts e) : ∃ t rest, ts = t :: rest ∧ k.startsWith t.kind = true := by
  induction h with
  | literal kind => exact ⟨_, _, rfl, by rcases kind with h | h | h <;> rw [h] <;> rfl⟩
  | group left | abs left => exact ⟨_, _, rfl, by rw [left]; rfl⟩
  | callee kind | subscript kind => exact ⟨_, _, rfl, by rw [kind]; rfl⟩
  | negate mark => exact ⟨_, _, rfl, by rw [mark]; rfl⟩
  | argument _ ih | ofPrimary _ ih | ofNegation _ ih | ofPower _ ih | ofProduct _ ih => exact ih
  | ofFactorial _ ih =>
    obtain ⟨t, rest, rfl, ht⟩ := ih
    exact ⟨t, rest, rfl, Category.startsWith_of_operand _ ht⟩
  | call _ _ _ ih | bang _ _ ih | apply _ _ _ _ ih | moreArguments _ _ _ ih | raise _ _ _ ih
  | multiply _ _ _ ih | juxtapose _ _ _ _ ih | add _ _ _ ih =>
    obtain ⟨t, rest, rfl, ht⟩ := ih
    exact ⟨t, _, rfl, ht⟩

theorem Phrase.ne_nil {k : Category} {o b : Bool} {ts : List Token} {e : Expr}
    (h : Phrase k o b ts e) : ts ≠ [] := by
  obtain ⟨t, rest, rfl, _⟩ := h.starts
  simp

end Formula
