import Formula.Compile

/-!
# The stages of a compilation

What must have succeeded if a compilation did: scanning, parsing, resolving the body and resolving
the clauses. For each kind of name and operator there is one lemma that says what it can resolve to.
-/

namespace Formula

variable {ε ε' α β : Type}

theorem bind_eq_ok {x : Except ε α} {f : α → Except ε β} {b : β} :
    x >>= f = .ok b ↔ ∃ a, x = .ok a ∧ f a = .ok b := by
  cases x <;> simp [bind, Except.bind]

theorem mapError_eq_ok {x : Except ε α} {f : ε → ε'} {a : α} :
    x.mapError f = .ok a ↔ x = .ok a := by
  cases x with
  | error e => constructor <;> intro h <;> cases h
  | ok b => constructor <;> intro h <;> cases h <;> rfl

theorem bind_eq_error {x : Except ε α} {f : α → Except ε β} {e : ε} :
    x >>= f = .error e ↔ x = .error e ∨ ∃ a, x = .ok a ∧ f a = .error e := by
  cases x <;> simp [bind, Except.bind]

theorem mapError_eq_error {x : Except ε α} {f : ε → ε'} {e' : ε'} :
    x.mapError f = .error e' ↔ ∃ e, x = .error e ∧ f e = e' := by
  cases x with
  | error e =>
    constructor
    · rintro ⟨⟩
      exact ⟨e, rfl, rfl⟩
    · rintro ⟨_, ⟨⟩, rfl⟩
      rfl
  | ok a =>
    constructor
    · rintro ⟨⟩
    · rintro ⟨_, ⟨⟩, _⟩

/-- The scope in which the names of a declaration are looked up. -/
def Declaration.scope {T : Type} (l : Library T) (d : Declaration) : Scope T :=
  { params := d.paramNames, library := l }

variable {T : Type} [Number T] {l : Library T} {f : CompiledFunction T}

/-! ## Names and operators -/

namespace Scope

variable {s : Scope T}

theorem resolveLiteral_cases {t : Token} {n : Node T} (h : s.resolveLiteral t = .ok n) :
    (t.kind = .identifier ∧ ∃ i, s.parameter t.lexeme = .ok i ∧ n = .parameter t.lexeme i) ∨
    (t.kind = .constant ∧ ∃ v, s.constant t.lexeme = .ok v ∧ n = .constant t.lexeme v) ∨
    (t.kind = .number ∧ ∃ v, Number.ofLiteral? t.lexeme = some v ∧ n = .number t.lexeme v) := by
  unfold resolveLiteral at h
  split at h
  · next hk =>
    cases hi : s.parameter t.lexeme with
    | error e => rw [hi] at h; cases h
    | ok i =>
      rw [hi] at h
      cases h
      exact .inl ⟨hk, i, rfl, rfl⟩
  · next hk =>
    cases hv : s.constant t.lexeme with
    | error e => rw [hv] at h; cases h
    | ok v =>
      rw [hv] at h
      cases h
      exact .inr (.inl ⟨hk, v, rfl, rfl⟩)
  · next hk =>
    split at h
    · next v hv =>
      cases h
      exact .inr (.inr ⟨hk, v, hv, rfl⟩)
    · cases h
  · cases h

omit [Number T]

theorem resolveAbs_cases (s : Scope T) (n : Node T) :
    (∃ apply, s.library.unary .abs = some apply ∧ s.resolveAbs n = .unary .abs apply n) ∨
    (s.library.unary .abs = none ∧
      ∃ entry, s.unaryFunction? "abs" = some entry ∧ s.resolveAbs n = .call entry [n]) ∨
    (s.library.unary .abs = none ∧ s.unaryFunction? "abs" = none ∧ s.resolveAbs n = .abs n) := by
  unfold resolveAbs
  cases s.library.unary .abs <;> cases s.unaryFunction? "abs" <;> simp

theorem resolveNegate_cases (s : Scope T) (n : Node T) :
    (∃ apply, s.library.unary .neg = some apply ∧ s.resolveNegate n = .unary .neg apply n) ∨
    (s.library.unary .neg = none ∧ s.resolveNegate n = .negate n) := by
  unfold resolveNegate
  cases s.library.unary .neg <;> simp

theorem resolveFactorial_cases {n n' : Node T} (h : s.resolveFactorial n = .ok n') :
    (∃ apply, s.library.unary .fac = some apply ∧ n' = .unary .fac apply n) ∨
    (s.library.unary .fac = none ∧
      ∃ entry, s.unaryFunction? "fac" = some entry ∧ n' = .call entry [n]) := by
  unfold resolveFactorial at h
  split at h
  · next apply happly =>
    cases h
    exact .inl ⟨apply, happly, rfl⟩
  split at h
  · next hnone _ entry hentry =>
    cases h
    exact .inr ⟨hnone, entry, hentry, rfl⟩
  · cases h

theorem resolveBinary_cases (s : Scope T) (op : BinaryOp) (l r : Node T) :
    (∃ apply, s.library.binary op = some apply ∧ s.resolveBinary op l r = .binary op apply l r) ∨
    (s.library.binary op = none ∧ s.resolveBinary op l r = .native op l r) := by
  unfold resolveBinary
  cases s.library.binary op <;> simp

end Scope

/-! ## Expressions and declarations -/

namespace Scope

variable {s : Scope T} {n : Node T}

theorem resolve_group {e : Expr} (h : s.resolve (.group e) = .ok n) :
    ∃ m, s.resolve e = .ok m ∧ n = .group m := by
  rw [resolve] at h
  obtain ⟨m, hm, h⟩ := bind_eq_ok.1 h
  cases h
  exact ⟨m, hm, rfl⟩

theorem resolve_abs {e : Expr} (h : s.resolve (.abs e) = .ok n) :
    ∃ m, s.resolve e = .ok m ∧ n = s.resolveAbs m := by
  rw [resolve] at h
  obtain ⟨m, hm, h⟩ := bind_eq_ok.1 h
  cases h
  exact ⟨m, hm, rfl⟩

theorem resolve_unary {op : UnaryOp} {e : Expr} (h : s.resolve (.unary op e) = .ok n) :
    ∃ m, s.resolve e = .ok m ∧ s.resolveUnary op m = .ok n := by
  rw [resolve] at h
  exact bind_eq_ok.1 h

theorem resolve_binary {op : BinaryOp} {left right : Expr}
    (h : s.resolve (.binary op left right) = .ok n) :
    ∃ a b, s.resolve left = .ok a ∧ s.resolve right = .ok b ∧ n = s.resolveBinary op a b := by
  rw [resolve] at h
  obtain ⟨a, ha, h⟩ := bind_eq_ok.1 h
  obtain ⟨b, hb, h⟩ := bind_eq_ok.1 h
  cases h
  exact ⟨a, b, ha, hb, rfl⟩

theorem resolve_call {name : Token} {variant : Option Expr} {es : List Expr}
    (h : s.resolve (.call name variant es) = .ok n) :
    ∃ entry nodes subscript, s.function name.lexeme variant.isSome es.length = .ok entry ∧
      s.resolveAll es = .ok nodes ∧ s.resolveOption variant = .ok subscript ∧
      n = .call entry (nodes ++ subscript) := by
  rw [resolve] at h
  obtain ⟨entry, hentry, h⟩ := bind_eq_ok.1 h
  obtain ⟨nodes, hnodes, h⟩ := bind_eq_ok.1 h
  obtain ⟨subscript, hsubscript, h⟩ := bind_eq_ok.1 h
  cases h
  exact ⟨entry, nodes, subscript, hentry, hnodes, hsubscript, rfl⟩

theorem resolveOption_some {e : Expr} {nodes : List (Node T)}
    (h : s.resolveOption (some e) = .ok nodes) : ∃ m, s.resolve e = .ok m ∧ nodes = [m] := by
  rw [resolveOption] at h
  obtain ⟨m, hm, h⟩ := bind_eq_ok.1 h
  cases h
  exact ⟨m, hm, rfl⟩

theorem resolveAll_cons {e : Expr} {es : List Expr} {nodes : List (Node T)}
    (h : s.resolveAll (e :: es) = .ok nodes) :
    ∃ n ns, s.resolve e = .ok n ∧ s.resolveAll es = .ok ns ∧ nodes = n :: ns := by
  rw [resolveAll] at h
  obtain ⟨n, hn, h⟩ := bind_eq_ok.1 h
  obtain ⟨ns, hns, h⟩ := bind_eq_ok.1 h
  cases h
  exact ⟨n, ns, hn, hns, rfl⟩

theorem length_resolveOption {e : Option Expr} {nodes : List (Node T)}
    (h : s.resolveOption e = .ok nodes) : nodes.length = if e.isSome then 1 else 0 := by
  cases e with
  | none =>
    rw [resolveOption] at h
    cases h
    rfl
  | some e =>
    obtain ⟨node, -, rfl⟩ := resolveOption_some h
    rfl

theorem length_resolveAll {es : List Expr} {nodes : List (Node T)}
    (h : s.resolveAll es = .ok nodes) : nodes.length = es.length := by
  induction es generalizing nodes with
  | nil =>
    rw [resolveAll] at h
    cases h
    rfl
  | cons e es ih =>
    obtain ⟨node, others, -, hothers, rfl⟩ := resolveAll_cons h
    rw [List.length_cons, List.length_cons, ih hothers]

theorem resolveAll_append (s : Scope T) (es es' : List Expr) :
    s.resolveAll (es ++ es') = s.resolveAll es >>= fun nodes =>
      s.resolveAll es' >>= fun nodes' => .ok (nodes ++ nodes') := by
  induction es with
  | nil =>
    rw [List.nil_append, resolveAll]
    exact (bind_pure (s.resolveAll es')).symm
  | cons e es ih =>
    rw [List.cons_append, resolveAll, resolveAll, ih]
    cases s.resolve e <;> cases s.resolveAll es <;> cases s.resolveAll es' <;> rfl

theorem exists_of_mem_resolveAll {es : List Expr} {nodes : List (Node T)}
    (h : s.resolveAll es = .ok nodes) (hn : n ∈ nodes) :
    ∃ e ∈ es, s.resolve e = .ok n := by
  induction es generalizing nodes with
  | nil =>
    rw [resolveAll] at h
    cases h
    cases hn
  | cons e es ih =>
    obtain ⟨node, others, hnode, hothers, rfl⟩ := resolveAll_cons h
    rcases List.mem_cons.1 hn with rfl | hn
    · exact ⟨e, by simp, hnode⟩
    · obtain ⟨e', he', h'⟩ := ih hothers hn
      exact ⟨e', List.mem_cons_of_mem e he', h'⟩

/-- The operands of a clause are resolved in their order, whether they stand in a chain or in a
list. -/
theorem resolveAll_operands (s : Scope T) (c : Clause) :
    s.resolveAll c.operands = (s.resolveClause c).map Condition.operands := by
  induction c with
  | compare left op right =>
    simp only [Clause.operands, resolveAll, resolveClause]
    cases s.resolve left <;> cases s.resolve right <;> rfl
  | chain previous op right ih =>
    rw [Clause.operands, resolveAll_append, ih]
    simp only [resolveAll, resolveClause]
    cases s.resolveClause previous <;> cases s.resolve right <;>
      simp [Except.map, bind, Except.bind, pure, Except.pure, Condition.operands]

/-- A clause and its condition have the same comparisons between the same operands. -/
theorem resolveClause_eq_ok {c : Clause} {condition : Condition T}
    (h : s.resolveClause c = .ok condition) :
    s.resolveAll c.operands = .ok condition.operands ∧ c.comparisons = condition.comparisons := by
  refine ⟨by rw [resolveAll_operands, h, Except.map], ?_⟩
  induction c generalizing condition with
  | compare left op right =>
    rw [resolveClause] at h
    obtain ⟨first, -, h⟩ := bind_eq_ok.1 h
    obtain ⟨node, -, h⟩ := bind_eq_ok.1 h
    cases h
    rfl
  | chain previous op right ih =>
    rw [resolveClause] at h
    obtain ⟨before, hbefore, h⟩ := bind_eq_ok.1 h
    obtain ⟨node, -, h⟩ := bind_eq_ok.1 h
    cases h
    simp [Clause.comparisons, Condition.comparisons, ih hbefore]

/-- A resolved clause has at least one link. -/
theorem links_ne_nil {c : Clause} {condition : Condition T}
    (h : s.resolveClause c = .ok condition) : condition.links ≠ [] := by
  have hcomparisons := (resolveClause_eq_ok h).2
  rintro hlinks
  rw [Condition.comparisons, hlinks] at hcomparisons
  cases c <;> simp [Clause.comparisons] at hcomparisons

theorem resolveClauses_cons {c : Clause} {cs : List Clause} {conditions : List (Condition T)}
    (h : s.resolveClauses (c :: cs) = .ok conditions) :
    ∃ first others, s.resolveClause c = .ok first ∧ s.resolveClauses cs = .ok others ∧
      conditions = first :: others := by
  rw [resolveClauses] at h
  obtain ⟨first, hfirst, h⟩ := bind_eq_ok.1 h
  obtain ⟨others, hothers, h⟩ := bind_eq_ok.1 h
  cases h
  exact ⟨first, others, hfirst, hothers, rfl⟩

theorem exists_of_mem_resolveClauses {cs : List Clause} {conditions : List (Condition T)}
    (h : s.resolveClauses cs = .ok conditions) {condition : Condition T}
    (hc : condition ∈ conditions) : ∃ c ∈ cs, s.resolveClause c = .ok condition := by
  induction cs generalizing conditions with
  | nil =>
    rw [resolveClauses] at h
    cases h
    cases hc
  | cons c cs ih =>
    obtain ⟨first, others, hfirst, hothers, rfl⟩ := resolveClauses_cons h
    rcases List.mem_cons.1 hc with rfl | hc
    · exact ⟨c, by simp, hfirst⟩
    · obtain ⟨c', hc', h'⟩ := ih hothers hc
      exact ⟨c', List.mem_cons_of_mem c hc', h'⟩

end Scope

theorem Declaration.compile_eq_ok {d : Declaration} (h : d.compile l = .ok f) :
    f.declaration = d ∧ (d.scope l).resolve d.body = .ok f.body ∧
      (d.scope l).resolveClauses d.clauses = .ok f.conditions := by
  unfold compile at h
  obtain ⟨body, hbody, h⟩ := bind_eq_ok.1 h
  obtain ⟨conditions, hconditions, h⟩ := bind_eq_ok.1 h
  cases h
  exact ⟨rfl, hbody, hconditions⟩

theorem Library.compile_eq_ok {source : String} (h : l.compile source = .ok f) :
    ∃ ts d, Token.scan l.vocabulary source = .ok ts ∧ Declaration.parse ts = .ok d ∧
      d.compile l = .ok f := by
  obtain ⟨d, hd, hf⟩ := bind_eq_ok.1 h
  obtain ⟨ts, hts, hd⟩ := bind_eq_ok.1 hd
  exact ⟨ts, d, mapError_eq_ok.1 hts, mapError_eq_ok.1 hd, mapError_eq_ok.1 hf⟩

/-- A source that is read but fails to compile is that of a declaration that does. -/
theorem Library.compile_eq_error {source : String} {error : CompileError}
    (h : l.compile source = .error (.compile error)) :
    ∃ ts d, Token.scan l.vocabulary source = .ok ts ∧ Declaration.parse ts = .ok d ∧
      d.compile l = .error error := by
  rcases bind_eq_error.1 h with h | ⟨d, hd, h⟩
  · -- errors of the other stages are of another kind
    rcases bind_eq_error.1 h with h | ⟨ts, -, h⟩
    · obtain ⟨_, -, h⟩ := mapError_eq_error.1 h
      cases h
    · obtain ⟨_, -, h⟩ := mapError_eq_error.1 h
      cases h
  · obtain ⟨ts, hts, hd⟩ := bind_eq_ok.1 hd
    obtain ⟨_, herror, ⟨⟩⟩ := mapError_eq_error.1 h
    exact ⟨ts, d, mapError_eq_ok.1 hts, mapError_eq_ok.1 hd, herror⟩

end Formula
