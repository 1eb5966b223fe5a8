import Formula.Number.Float
import Formula.Proofs.Rendering.Declaration
import Formula.Proofs.Rendering.Phrase
import Formula.Proofs.Rendering.Resolved

/-!
# Functions with the same text

The text of a compiled function says everything about it but its name and the grouping of its
comparisons into conditions, and neither has an influence on its results. A text shows the names in
a function only, so this is about functions compiled with one library.

## Main statements

* `source_determines_function` — functions with the same text have the same results.
-/

namespace Formula

open Rendered

variable {T : Type} {ts : List Token}

/-! ## Written declarations -/

/-- The expression has a phrase of spelled tokens. -/
def Expr.Written (e : Expr) : Prop :=
  ∃ b ts, (∀ t ∈ ts, t.Spelled) ∧ Phrase .sum false b ts e

/-- The expressions of the declaration have phrases and its parameters are letters. -/
structure Declaration.Written (d : Declaration) : Prop where
  letters : Letters d.paramNames
  body : d.body.Written
  operands : ∀ c ∈ d.clauses, ∀ e ∈ c.operands, e.Written

theorem HeaderPhrase.letters {name : Token} {params : List Token}
    (h : HeaderPhrase ts name params) (hts : ∀ t ∈ ts, t.Spelled) :
    Letters (params.map Token.lexeme) := by
  cases h with
  | constant => exact nofun
  | function _ _ list =>
    intro p hp
    obtain ⟨t, ht, rfl⟩ := List.mem_map.1 hp
    obtain ⟨us, hus, rfl, hkind⟩ := list.exists_item ht
    have hspelled := hts t (by simp [hus (List.mem_singleton_self t)])
    rwa [Token.Spelled, hkind] at hspelled

theorem DeclarationPhrase.letters {d : Declaration} (h : DeclarationPhrase ts d)
    (hts : ∀ t ∈ ts, t.Spelled) : Letters d.paramNames := by
  cases h with
  | total header | guardFirst header | guardLast header =>
    exact header.letters fun t ht => hts t (by simp [ht])

theorem DeclarationPhrase.written {d : Declaration} (h : DeclarationPhrase ts d)
    (hts : ∀ t ∈ ts, t.Spelled) : d.Written := by
  have written : ∀ e ∈ d.expressions, e.Written := fun e he => by
    obtain ⟨b, us, hus, phrase⟩ := h.exists_phrase he
    exact ⟨b, us, fun t ht => hts t (hus ht), phrase⟩
  refine ⟨h.letters hts, written _ (by simp [Declaration.expressions]), fun c hc e he => ?_⟩
  exact written e (List.mem_cons_of_mem _ (List.mem_flatMap.2 ⟨c, hc, he⟩))

/-! ## Compiled functions -/

variable [Number T] {l : Library T} {f g : CompiledFunction T}

theorem Expr.Written.reads {e : Expr} (h : e.Written) {s : Scope T} {n : Node T}
    (hn : s.resolve e = .ok n) : ReadsAs .sum n := by
  obtain ⟨b, ts, hts, phrase⟩ := h
  exact phrase.renders hts n hn

/-- Every name in the function has the meaning that the library gives it. -/
structure CompiledFunction.Resolved (l : Library T) (f : CompiledFunction T) : Prop where
  body : (f.declaration.scope l).Resolved f.body
  operand : ∀ c ∈ f.conditions, ∀ n ∈ c.operands, (f.declaration.scope l).Resolved n

theorem CompiledFunction.Resolved.node (h : f.Resolved l) {node : Node T}
    (hnode : node ∈ f.body :: f.conditions.flatMap Condition.operands) :
    (f.declaration.scope l).Resolved node := by
  rcases List.mem_cons.1 hnode with rfl | hnode
  · exact h.body
  · obtain ⟨c, hc, hnode⟩ := List.mem_flatMap.1 hnode
    exact h.operand c hc node hnode

namespace Declaration

variable {d : Declaration}

theorem resolve_operand (h : d.compile l = .ok f) {c : Condition T} (hc : c ∈ f.conditions)
    {n : Node T} (hn : n ∈ c.operands) :
    ∃ clause ∈ d.clauses, ∃ e ∈ clause.operands, (d.scope l).resolve e = .ok n := by
  obtain ⟨-, -, hconditions⟩ := compile_eq_ok h
  obtain ⟨clause, hclause, hresolve⟩ := Scope.exists_of_mem_resolveClauses hconditions hc
  obtain ⟨e, he, hn⟩ :=
    Scope.exists_of_mem_resolveAll (Scope.resolveClause_eq_ok hresolve).1 hn
  exact ⟨clause, hclause, e, he, hn⟩

theorem links_ne_nil (h : d.compile l = .ok f) : ∀ c ∈ f.conditions, c.links ≠ [] := by
  obtain ⟨-, -, hconditions⟩ := compile_eq_ok h
  intro c hc
  obtain ⟨clause, -, hresolve⟩ := Scope.exists_of_mem_resolveClauses hconditions hc
  exact Scope.links_ne_nil hresolve

theorem Written.legible (hd : d.Written) (h : d.compile l = .ok f) : f.Legible := by
  obtain ⟨hdeclaration, hbody, -⟩ := compile_eq_ok h
  refine ⟨?_, links_ne_nil h, fun c hc n hn => ?_, hd.body.reads hbody⟩
  · rw [CompiledFunction.params, hdeclaration]
    exact hd.letters
  · obtain ⟨clause, hclause, e, he, hresolve⟩ := resolve_operand h hc hn
    exact (hd.operands clause hclause e he).reads hresolve

theorem resolved_compile (h : d.compile l = .ok f) : f.Resolved l := by
  obtain ⟨rfl, hbody, -⟩ := compile_eq_ok h
  refine ⟨Scope.resolved_resolve hbody, fun c hc n hn => ?_⟩
  obtain ⟨-, -, e, -, hresolve⟩ := resolve_operand h hc hn
  exact Scope.resolved_resolve hresolve

end Declaration

theorem Library.legible_compile {source : String} (h : l.compile source = .ok f) : f.Legible := by
  obtain ⟨ts, d, hts, hd, hf⟩ := compile_eq_ok h
  exact ((declarationPhrase_of_parse hd).written (Token.spelled_scan hts)).legible hf

theorem Library.resolved_compile {source : String} (h : l.compile source = .ok f) :
    f.Resolved l := by
  obtain ⟨_, _, _, _, hf⟩ := compile_eq_ok h
  exact Declaration.resolved_compile hf

/-! ## Equal texts -/

theorem pairClause_injective {s : Scope T} {p q : Node T × Comparison × Node T}
    (hp : s.Resolved p.1 ∧ s.Resolved p.2.2) (hq : s.Resolved q.1 ∧ s.Resolved q.2.2)
    (h : pairClause p = pairClause q) : p = q := by
  obtain ⟨l, op, r⟩ := p
  obtain ⟨l', op', r'⟩ := q
  obtain ⟨hl, rfl, hr⟩ := Clause.compare.inj h
  have hleft : l = l' := hp.1.tree_injective hq.1 hl
  have hright : r = r' := hp.2.tree_injective hq.2 hr
  rw [hleft, hright]

namespace CompiledFunction

theorem Resolved.pair (h : f.Resolved l) {p : Node T × Comparison × Node T}
    (hp : p ∈ f.conditions.flatMap Condition.pairs) :
    (f.declaration.scope l).Resolved p.1 ∧ (f.declaration.scope l).Resolved p.2.2 := by
  obtain ⟨c, hc, hp⟩ := List.mem_flatMap.1 hp
  obtain ⟨hl, hr⟩ := mem_operands_of_pairs hp
  exact ⟨h.operand c hc _ hl, h.operand c hc _ hr⟩

/-- In one library the reading of a function shows its body and its comparisons. -/
theorem Resolved.eq_of_reading (hf : f.Resolved l) (hg : g.Resolved l)
    (h : f.reading = g.reading) : f.body = g.body ∧
      f.conditions.flatMap Condition.pairs = g.conditions.flatMap Condition.pairs := by
  have hscope : g.declaration.scope l = f.declaration.scope l :=
    congrArg (Scope.mk · l) (params_eq h).symm
  have hbody : f.body.tree = g.body.tree := by
    have hcall := (Scope.call_injective (congrArg Declaration.body h)).2
    exact (List.cons.inj hcall).1
  refine ⟨hf.body.tree_injective (hscope ▸ hg.body) hbody, ?_⟩
  exact Scope.eq_of_map_eq
    (fun p hp q hq => pairClause_injective (hf.pair hp) (hscope ▸ hg.pair hq))
    (congrArg Declaration.clauses h)

end CompiledFunction

/-- Functions compiled with one library that have the same text have the same results. -/
theorem source_determines_function {source source' : String} (hf : l.compile source = .ok f)
    (hg : l.compile source' = .ok g) (h : f.source = g.source) :
    f.arity = g.arity ∧
      ∀ args, f.arity ≤ args.length → (f.call args).outcome = (g.call args).outcome := by
  have legible := Library.legible_compile hf
  have legible' := Library.legible_compile hg
  have hreading := legible.reading_eq legible' h
  obtain ⟨hbody, hpairs⟩ :=
    (Library.resolved_compile hf).eq_of_reading (Library.resolved_compile hg) hreading
  have harity : f.arity = g.arity := congrArg List.length (CompiledFunction.params_eq hreading)
  refine ⟨harity, fun args hargs => ?_⟩
  rw [CompiledFunction.outcome_call hargs legible.links_ne_nil,
    CompiledFunction.outcome_call (harity ▸ hargs) legible'.links_ne_nil, hbody, hpairs]

/-- A chain of comparisons has the text of its comparisons one by one. -/
theorem source_determines_function_chain :
    let l : Library Float := .empty
    ∃ f g, l.compile "f(a, b, c) = \x7b a < b < c \x7d -a + bc" = .ok f ∧
      l.compile "g(a, b, c) = -a + b * c \x7b a < b, b < c \x7d" = .ok g ∧ f.source = g.source ∧
      f.arity = g.arity ∧
      ∀ args, f.arity ≤ args.length → (f.call args).outcome = (g.call args).outcome := by
  intro l
  let text := "|a, b, c| if a < b && b < c \x7b Some((-a) + b * c) \x7d else \x7b None \x7d"
  have chain : ∃ f, l.compile "f(a, b, c) = \x7b a < b < c \x7d -a + bc" = .ok f ∧
      f.source = text := ⟨_, by with_unfolding_all rfl, by rfl⟩
  have separate : ∃ g, l.compile "g(a, b, c) = -a + b * c \x7b a < b, b < c \x7d" = .ok g ∧
      g.source = text := ⟨_, by with_unfolding_all rfl, by rfl⟩
  obtain ⟨f, hf, hsource⟩ := chain
  obtain ⟨g, hg, hsource'⟩ := separate
  have h : f.source = g.source := hsource.trans hsource'.symm
  exact ⟨f, g, hf, hg, h, source_determines_function hf hg h⟩

end Formula
