import Formula.Proofs.Lookup
import Formula.Proofs.Rendering.Tree

/-!
# Rendered phrases

The node of a parsed expression is rendered as a phrase of the category the expression has. This
is where precedence counts: native operators are written without parentheses, and what the grammar
admits as an operand never needs them. It holds whichever operators a library replaces.
-/

namespace Formula

open Rendered

variable {T : Type} {s : Scope T}

/-! ## Names -/

theorem not_delimiter_of_name {word name : String} (hword : IsWord word.toList)
    (h : name ∈ FunctionName.plainNames word ∨ name ∈ FunctionName.subscriptedNames word) :
    ∀ c ∈ name.toList, isDelimiter c = false := by
  have hne : word ≠ "" := by
    rintro rfl
    exact hword.1 rfl
  have hletters : ∀ c ∈ word.toList, isDelimiter c = false := fun c hc =>
    not_delimiter (.inl (hword.2 c hc))
  rcases h with h | h
  · unfold FunctionName.plainNames at h
    rw [if_neg hne] at h
    split at h
    · cases h
    · rwa [List.mem_singleton.1 h]
  · unfold FunctionName.subscriptedNames at h
    rw [if_neg hne] at h
    rw [List.mem_singleton.1 h, String.toList_push]
    intro c hc
    rcases List.mem_append.1 hc with hc | hc
    · exact hletters c hc
    · rw [List.mem_singleton.1 hc]
      rfl

theorem not_delimiter_of_function {word : String} (hword : IsWord word.toList) {withVariant : Bool}
    {count : Nat} {entry : FunctionEntry T}
    (h : s.function word withVariant count = .ok entry) :
    ∀ c ∈ entry.name.toList, isDelimiter c = false := by
  have found := Scope.function_eq_ok h
  cases withVariant with
  | false => exact not_delimiter_of_name hword (.inl (s.plainFunction?_eq_some found).1)
  | true => exact not_delimiter_of_name hword (.inr (s.variantFunction?_eq_some found).1)

/-! ## Operations -/

theorem readsAs_unaryFunction {word : String} (hword : IsWord word.toList) {entry : FunctionEntry T}
    (hentry : s.unaryFunction? word = some entry) {n : Node T} (h : ReadsAs .sum n) :
    ReadsAs .primary (.call entry [n]) := by
  have hplain := s.plainFunction?_eq_some (s.plainFunction?_of_unaryFunction? hentry)
  exact readsAs_call (not_delimiter_of_name hword (.inl hplain.1)) (by simpa using h)

theorem readsAs_resolveAbs {n : Node T} (h : ReadsAs .sum n) :
    ReadsAs .primary (s.resolveAbs n) := by
  obtain ⟨apply, -, hn⟩ | ⟨-, entry, hentry, hn⟩ | ⟨-, -, hn⟩ := s.resolveAbs_cases n <;> rw [hn]
  · exact readsAs_unary _ _ h
  · exact readsAs_unaryFunction (by simp [IsWord]) hentry h
  · exact readsAs_abs h

theorem readsAs_resolveNegate {n : Node T} (h : ReadsAs .negation n) :
    ReadsAs .primary (s.resolveNegate n) := by
  obtain ⟨apply, -, hn⟩ | ⟨-, hn⟩ := s.resolveNegate_cases n <;> rw [hn]
  · exact readsAs_unary _ _ fun o => (Phrase.ofNegation (h o)).sum_of_power
  · exact readsAs_negate h

theorem readsAs_resolveFactorial {n n' : Node T} (h : ReadsAs .sum n)
    (hn : s.resolveFactorial n = .ok n') : ReadsAs .primary n' := by
  obtain ⟨apply, -, rfl⟩ | ⟨-, entry, hentry, rfl⟩ := Scope.resolveFactorial_cases hn
  · exact readsAs_unary _ _ h
  · exact readsAs_unaryFunction (by simp [IsWord]) hentry h

/-- An operator that a library replaces is rendered as a call, in every category. -/
theorem readsAs_resolveBinary {op : BinaryOp} {k : Category} {l r : Node T} (hl : ReadsAs .sum l)
    (hr : ReadsAs .sum r) (lift : ∀ n : Node T, ReadsAs .primary n → ReadsAs k n)
    (native : ReadsAs k (.native op l r)) : ReadsAs k (s.resolveBinary op l r) := by
  obtain ⟨apply, -, hn⟩ | ⟨-, hn⟩ := s.resolveBinary_cases op l r <;> rw [hn]
  · exact lift _ (readsAs_binary _ _ hl hr)
  · exact native

variable [Number T]

theorem readsAs_resolveLiteral {t : Token} (ht : t.Spelled) {n : Node T}
    (h : s.resolveLiteral t = .ok n) : ReadsAs .primary n := by
  unfold Token.Spelled at ht
  obtain ⟨hk, i, -, rfl⟩ | ⟨hk, v, -, rfl⟩ | ⟨hk, v, -, rfl⟩ := Scope.resolveLiteral_cases h <;>
    rw [hk] at ht
  · exact phrase_literal (isRun_of_isWord ht.1) (kindOf_letter ht.1 ht.2) (.inr (.inl rfl))
  · have hrun : IsRun ("constants." ++ t.lexeme).toList :=
      isRun_qualified (by simp [IsRun, isDelimiter]) (isRun_of_isWord ht).2
    exact phrase_literal hrun (kindOf_constant t.lexeme) (.inr (.inr rfl))
  · exact phrase_literal (isRun_of_isNumeral ht) (kindOf_numeral ht) (.inl rfl)

/-! ## Expressions -/

/-- The nodes that an expression of the category resolves to are rendered as phrases. -/
def Category.Renders (s : Scope T) : Category → Expr → Prop
  | .callee, e => ∀ f v, e = .call f v [] → IsWord f.lexeme.toList ∧
      ∀ subscript ∈ v, ∀ n, s.resolve subscript = .ok n → ReadsAs .primary n
  | .arguments, e => ∀ f v es, e = .call f v es → ∀ nodes, s.resolveAll es = .ok nodes →
      ∀ n ∈ nodes, ReadsAs .sum n
  | k, e => ∀ n, s.resolve e = .ok n → ReadsAs k n

theorem renders_call {f : Token} {v : Option Expr} {es : List Expr}
    (hcallee : Category.callee.Renders s (.call f v []))
    (hes : ∀ nodes, s.resolveAll es = .ok nodes → ∀ n ∈ nodes, ReadsAs .sum n) :
    Category.primary.Renders s (.call f v es) := by
  obtain ⟨hf, hv⟩ := hcallee f v rfl
  intro n hn
  obtain ⟨entry, nodes, subscript, hentry, hnodes, hsubscript, rfl⟩ := Scope.resolve_call hn
  refine readsAs_call (not_delimiter_of_function hf hentry) fun m hm => ?_
  rcases List.mem_append.1 hm with hm | hm
  · exact hes nodes hnodes m hm
  · cases v with
    | none =>
      rw [Scope.resolveOption] at hsubscript
      cases hsubscript
      cases hm
    | some v =>
      obtain ⟨node, hnode, rfl⟩ := Scope.resolveOption_some hsubscript
      rw [List.mem_singleton.1 hm]
      exact fun o => (hv v rfl node hnode o).power_of_primary.sum_of_power

theorem renders_binary {op : BinaryOp} {k : Category} {l r : Expr}
    (hl : ∀ n, s.resolve l = .ok n → ReadsAs .sum n)
    (hr : ∀ n, s.resolve r = .ok n → ReadsAs .sum n)
    (lift : ∀ n : Node T, ReadsAs .primary n → ReadsAs k n)
    (native : ∀ n n', s.resolve l = .ok n → s.resolve r = .ok n' → ReadsAs k (.native op n n')) :
    ∀ n, s.resolve (.binary op l r) = .ok n → ReadsAs k n := by
  intro n hn
  obtain ⟨a, b, ha, hb, rfl⟩ := Scope.resolve_binary hn
  exact readsAs_resolveBinary (hl a ha) (hr b hb) lift (native a b ha hb)

/-- A product is rendered with its operator, also where none was written. -/
theorem renders_product {op : BinaryOp} {kind : TokenKind} {l r : Expr}
    (hop : MultiplicativeMark kind op) (hl : Category.product.Renders s l)
    (hr : Category.power.Renders s r) : Category.product.Renders s (.binary op l r) := by
  refine renders_binary (fun n hn o => .ofProduct (hl n hn o))
    (fun n hn o => (hr n hn o).sum_of_power) (fun n hn o => .ofPower (hn o).power_of_primary) ?_
  exact fun n n' hn hn' => readsAs_multiply hop (hl n hn) (hr n' hn')

theorem Phrase.renders {k : Category} {o b : Bool} {ts : List Token} {e : Expr}
    (h : Phrase k o b ts e) (hts : ∀ t ∈ ts, t.Spelled) : k.Renders s e := by
  induction h with
  | literal kind =>
    intro n hn
    rw [Scope.resolve] at hn
    exact readsAs_resolveLiteral (hts _ (by simp)) hn
  | group left inner right ih =>
    intro n hn
    obtain ⟨m, hm, rfl⟩ := Scope.resolve_group hn
    exact readsAs_group (ih (fun t ht => hts t (by simp [ht])) m hm)
  | abs left inner right ih =>
    intro n hn
    obtain ⟨m, hm, rfl⟩ := Scope.resolve_abs hn
    exact readsAs_resolveAbs (ih (fun t ht => hts t (by simp [ht])) m hm)
  | @callee _ f kind =>
    rintro _ _ ⟨⟩
    refine ⟨?_, fun _ h => by cases h⟩
    have hf := hts f (by simp)
    rwa [Token.Spelled, kind] at hf
  | @subscript _ _ f _ _ v kind mark variant ih =>
    rintro _ _ ⟨⟩
    have hf := hts f (by simp)
    rw [Token.Spelled, kind] at hf
    refine ⟨hf, ?_⟩
    rintro _ ⟨⟩ n hn
    exact ih (fun t ht => hts t (by simp [ht])) n hn
  | call callee left right ih =>
    refine renders_call (ih fun t ht => hts t (by simp [ht])) fun nodes hnodes => ?_
    rw [Scope.resolveAll] at hnodes
    cases hnodes
    simp
  | apply callee left arguments right ih ih' =>
    exact renders_call (ih fun t ht => hts t (by simp [ht]))
      (ih' (fun t ht => hts t (by simp [ht])) _ _ _ rfl)
  | argument argument ih =>
    rintro _ _ _ ⟨⟩ nodes hnodes n hn
    obtain ⟨m, ms, hm, hms, rfl⟩ := Scope.resolveAll_cons hnodes
    cases hms
    rw [List.mem_singleton.1 hn]
    exact ih hts m hm
  | moreArguments first comma others ih ih' =>
    rintro _ _ _ ⟨⟩ nodes hnodes n hn
    obtain ⟨m, ms, hm, hms, rfl⟩ := Scope.resolveAll_cons hnodes
    rcases List.mem_cons.1 hn with rfl | hn
    · exact ih (fun t ht => hts t (by simp [ht])) n hm
    · exact ih' (fun t ht => hts t (by simp [ht])) _ _ _ rfl ms hms n hn
  | ofPrimary primary ih => exact fun n hn o => .ofPrimary (ih hts n hn o)
  | bang operand mark ih =>
    intro n hn
    obtain ⟨m, hm, hn⟩ := Scope.resolve_unary hn
    have hoperand := ih (fun t ht => hts t (by simp [ht])) m hm
    exact fun o => .ofPrimary (readsAs_resolveFactorial
      (fun o => (Phrase.ofNegation (.ofFactorial (hoperand o))).sum_of_power) hn o)
  | ofFactorial factorial ih => exact fun n hn o => .ofFactorial (ih hts n hn o)
  | negate mark operand ih =>
    intro n hn
    obtain ⟨m, hm, hn⟩ := Scope.resolve_unary hn
    cases hn
    have hoperand := ih (fun t ht => hts t (by simp [ht])) m hm
    exact fun o => .ofFactorial (.ofPrimary (readsAs_resolveNegate hoperand o))
  | ofNegation negation ih => exact fun n hn o => .ofNegation (ih hts n hn o)
  | raise base mark exponent ih ih' =>
    have hl := ih fun t ht => hts t (by simp [ht])
    have hr := ih' fun t ht => hts t (by simp [ht])
    refine renders_binary (fun n hn o => (Phrase.ofNegation (hl n hn o)).sum_of_power)
      (fun n hn o => (hr n hn o).sum_of_power) (fun n hn o => (hn o).power_of_primary) ?_
    exact fun n n' hn hn' => readsAs_raise (hl n hn) (hr n' hn')
  | ofPower power ih => exact fun n hn o => .ofPower (ih hts n hn o)
  | multiply left mark right ih ih' =>
    have hl := ih fun t ht => hts t (by simp [ht])
    have hr := ih' fun t ht => hts t (by simp [ht])
    exact renders_product mark hl hr
  | juxtapose left apart start right ih ih' =>
    -- the operator that was left out is written, so the pipes no longer matter
    have hl := ih fun t ht => hts t (by simp [ht])
    have hr := ih' fun t ht => hts t (List.mem_append_right _ ht)
    exact renders_product .star hl hr
  | ofProduct product ih => exact fun n hn o => .ofProduct (ih hts n hn o)
  | add left mark right ih ih' =>
    have hl := ih fun t ht => hts t (by simp [ht])
    have hr := ih' fun t ht => hts t (by simp [ht])
    refine renders_binary hl (fun n hn o => .ofProduct (hr n hn o))
      (fun n hn o => (hn o).power_of_primary.sum_of_power) ?_
    exact fun n n' hn hn' => readsAs_add mark (hl n hn) (hr n' hn')

end Formula
