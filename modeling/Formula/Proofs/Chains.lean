import Formula.Proofs.Defects
import Formula.Proofs.Rendering.Source

/-!
# Chains are conjunctions

A clause such as `0 <= x < 10` says the same as the clauses `0 <= x` and `x < 10` do in its place.
What fails to compile fails with the same error, and otherwise the text and the results of the
compiled function are the same. An operand in the middle of a chain is evaluated once in the one
form and up to twice in the other.

## Main definitions

* `Declaration.unchained` — the declaration with every link of its chains a clause of its own.

## Main statements

* `Declaration.compile_unchained` — compiling the links is taking the links of what is compiled.
* `chains_are_conjunctions` — the errors, the texts and the results are the same.
-/

namespace Formula

open Rendered

variable {T : Type}

/-- A comparison as a clause. -/
def Clause.ofPair : Expr × Comparison × Expr → Clause
  | (left, op, right) => .compare left op right

/-- The links of a chain, each a clause of its own. -/
def Clause.unchained (c : Clause) : List Clause :=
  c.pairs.map ofPair

/-- `0 < x <= y < 1` becomes `0 < x`, `x <= y` and `y < 1`. -/
example (a b c d : Expr) :
    (((Clause.compare a .less b).chain .lessEqual c).chain .less d).unchained =
      [.compare a .less b, .compare b .lessEqual c, .compare c .less d] := rfl

/-- The declaration with the links of each clause in its place. -/
def Declaration.unchained (d : Declaration) : Declaration :=
  { d with clauses := d.clauses.flatMap Clause.unchained }

/-- A comparison as a condition. -/
def Condition.ofPair : Node T × Comparison × Node T → Condition T
  | (left, op, right) => { first := left, links := [(op, right)] }

/-- The links of a condition, each a condition of its own. -/
def Condition.unchained (c : Condition T) : List (Condition T) :=
  c.pairs.map ofPair

/-- The function with the links of each condition in its place. -/
def CompiledFunction.unchained (f : CompiledFunction T) : CompiledFunction T :=
  { declaration := f.declaration.unchained
    body := f.body
    conditions := f.conditions.flatMap Condition.unchained }

/-! ## Compilation -/

namespace Scope

variable [Number T] (s : Scope T)

theorem resolveClauses_append (cs cs' : List Clause) :
    s.resolveClauses (cs ++ cs') = do
      let conditions ← s.resolveClauses cs
      let conditions' ← s.resolveClauses cs'
      return conditions ++ conditions' := by
  induction cs with
  | nil => simp [resolveClauses]
  | cons c cs ih => simp [resolveClauses, ih]

/-- The links after an operand that resolves, from left to right. -/
theorem resolveClauses_pairs {e : Expr} {node : Node T} (he : s.resolve e = .ok node)
    {es : List Expr} {ops : List Comparison} (hlength : es.length = ops.length) :
    s.resolveClauses (((e :: es).zip (ops.zip es)).map .ofPair) =
      (s.resolveAll es).map fun nodes => ((node :: nodes).zip (ops.zip nodes)).map .ofPair := by
  induction es generalizing e node ops with
  | nil =>
    cases List.length_eq_zero_iff.1 hlength.symm
    rfl
  | cons e' es ih =>
    obtain ⟨op, ops, rfl⟩ := List.exists_cons_of_length_eq_add_one hlength.symm
    simp only [List.zip_cons_cons, List.map_cons, resolveClauses, resolveAll, Clause.ofPair,
      resolveClause, he]
    cases he' : s.resolve e' with
    | error error => rfl
    | ok node' =>
      -- the right operand resolved here is the left one of the links after it
      rw [ih he' (by simpa using hlength)]
      cases s.resolveAll es <;> rfl

/-- A chain of at least one link is resolved operand by operand, whether its middle operands are
resolved once or twice. -/
theorem resolveClauses_chain {es : List Expr} {ops : List Comparison}
    (hlength : es.length = ops.length + 1) (hops : ops ≠ []) :
    s.resolveClauses ((es.zip (ops.zip es.tail)).map .ofPair) =
      (s.resolveAll es).map fun nodes => (nodes.zip (ops.zip nodes.tail)).map .ofPair := by
  obtain ⟨e, es, rfl⟩ := List.exists_cons_of_length_eq_add_one hlength
  cases he : s.resolve e with
  | ok node =>
    rw [List.tail_cons, s.resolveClauses_pairs he (by simpa using hlength), resolveAll, he]
    cases s.resolveAll es <;> rfl
  | error error =>
    obtain ⟨op, ops, rfl⟩ := List.exists_cons_of_ne_nil hops
    obtain ⟨e', es, rfl⟩ := List.exists_cons_of_length_eq_add_one (Nat.add_right_cancel hlength)
    simp only [List.tail_cons, List.zip_cons_cons, List.map_cons, resolveClauses, resolveAll,
      Clause.ofPair, resolveClause, he]
    rfl

/-- The operands of a clause and the comparisons between them are all that its links depend on. -/
theorem map_unchained_resolveClause (c : Clause) :
    (s.resolveClause c).map Condition.unchained = (s.resolveAll c.operands).map fun nodes =>
      (nodes.zip (c.comparisons.zip nodes.tail)).map .ofPair := by
  cases h : s.resolveClause c with
  | ok condition =>
    obtain ⟨hoperands, hcomparisons⟩ := resolveClause_eq_ok h
    rw [hoperands, hcomparisons]
    rfl
  | error error =>
    have reported := ((s.reports_resolveClause c).eq_error_iff error).1 h
    rw [((s.reports_resolveAll c.operands).eq_error_iff error).2 reported]
    rfl

/-- The links of a clause resolve to the links of its condition. -/
theorem resolveClauses_unchained (c : Clause) :
    s.resolveClauses c.unchained = (s.resolveClause c).map Condition.unchained := by
  have hops : c.comparisons ≠ [] := by cases c <;> simp [Clause.comparisons]
  rw [map_unchained_resolveClause]
  exact s.resolveClauses_chain c.length_operands hops

theorem resolveClauses_flatMap (cs : List Clause) :
    s.resolveClauses (cs.flatMap Clause.unchained) =
      (s.resolveClauses cs).map (·.flatMap Condition.unchained) := by
  induction cs with
  | nil => rfl
  | cons c cs ih =>
    rw [List.flatMap_cons, resolveClauses_append, resolveClauses_unchained, ih, resolveClauses]
    cases s.resolveClause c with
    | error error => rfl
    | ok condition => cases s.resolveClauses cs <;> rfl

end Scope

/-- Compiling the links of a declaration is taking the links of what it compiles to. -/
theorem Declaration.compile_unchained [Number T] (l : Library T) (d : Declaration) :
    d.unchained.compile l = (d.compile l).map CompiledFunction.unchained := by
  let s := d.scope l
  calc d.unchained.compile l
    _ = s.resolve d.body >>= fun body =>
          s.resolveClauses (d.clauses.flatMap Clause.unchained) >>= fun conditions =>
            .ok { declaration := d.unchained, body, conditions } := rfl
    _ = (s.resolve d.body >>= fun body => s.resolveClauses d.clauses >>= fun conditions =>
          .ok { declaration := d, body, conditions }).map .unchained := by
      rw [s.resolveClauses_flatMap]
      cases s.resolve d.body with
      | error error => rfl
      | ok body => cases s.resolveClauses d.clauses <;> rfl
    _ = (d.compile l).map .unchained := rfl

/-! ## Texts and results -/

namespace Condition

variable {cs : List (Condition T)}

theorem flatMap_unchained (cs : List (Condition T)) :
    cs.flatMap unchained = (cs.flatMap pairs).map ofPair := by
  rw [List.map_flatMap]
  rfl

theorem source_ofPair (p : Node T × Comparison × Node T) : (ofPair p).source = pairText p :=
  String.intercalate_singleton

theorem pairs_ofPair (p : Node T × Comparison × Node T) : (ofPair p).pairs = [p] := rfl

/-- How the comparisons are grouped into conditions does not show in the text. -/
theorem intercalate_source (hcs : ∀ c ∈ cs, c.links ≠ []) :
    " && ".intercalate (cs.map source) = " && ".intercalate ((cs.flatMap pairs).map pairText) := by
  induction cs with
  | nil => rfl
  | cons c cs ih =>
    obtain ⟨hc, hcs⟩ := List.forall_mem_cons.1 hcs
    rw [List.map_cons, List.flatMap_cons, List.map_append]
    cases cs with
    | nil => simp [source_condition]
    | cons c' cs =>
      have hpairs : (c' :: cs).flatMap pairs ≠ [] := by
        simp [pairs_ne_nil (hcs c' (by simp))]
      rw [String.intercalate_cons_of_ne_nil (by simp), ih hcs, source_condition,
        String.intercalate_append_of_ne_nil (by simpa using pairs_ne_nil hc)
          (by simpa using hpairs)]

end Condition

namespace CompiledFunction

variable {f : CompiledFunction T} (hlinks : ∀ c ∈ f.conditions, c.links ≠ [])

include hlinks

theorem isEmpty_unchained : f.unchained.conditions.isEmpty = f.conditions.isEmpty := by
  unfold unchained
  cases hcs : f.conditions with
  | nil => rfl
  | cons c cs =>
    have hpairs := pairs_ne_nil (hlinks c (by simp [hcs]))
    simp [Condition.unchained, hpairs]

theorem source_unchained : f.unchained.source = f.source := by
  have htext : " && ".intercalate (f.unchained.conditions.map Condition.source) =
      " && ".intercalate (f.conditions.map Condition.source) := by
    rw [Condition.intercalate_source hlinks, unchained, Condition.flatMap_unchained, List.map_map]
    simp only [Function.comp_def, Condition.source_ofPair]
  unfold source
  rw [isEmpty_unchained hlinks, htext]
  rfl

/-- With too few arguments nothing is evaluated in either form; with enough of them the results are
those of the comparisons, one by one. -/
theorem outcome_call_unchained [Number T] (args : List T) :
    (f.unchained.call args).outcome = (f.call args).outcome := by
  rcases Nat.lt_or_ge args.length f.arity with hargs | hargs
  · rw [call_eq, call_eq, if_pos hargs, if_pos (show args.length < f.unchained.arity from hargs)]
    rfl
  · have hlinks' : ∀ c ∈ f.unchained.conditions, c.links ≠ [] := by
      intro c hc
      rw [unchained, Condition.flatMap_unchained] at hc
      obtain ⟨p, -, rfl⟩ := List.mem_map.1 hc
      simp [Condition.ofPair]
    have hpairs : f.unchained.conditions.flatMap Condition.pairs =
        f.conditions.flatMap Condition.pairs := by
      rw [unchained, Condition.flatMap_unchained, List.flatMap_map]
      simp only [Condition.pairs_ofPair, List.flatMap_singleton']
    rw [outcome_call hargs hlinks, outcome_call (f := f.unchained) hargs hlinks', hpairs]
    rfl

end CompiledFunction

/-- A declaration and the one with every link a clause of its own fail with the same error, or give
functions with the same text and the same results. -/
theorem chains_are_conjunctions [Number T] (l : Library T) (d : Declaration) :
    (∃ error, d.compile l = .error error ∧ d.unchained.compile l = .error error) ∨
    ∃ f g, d.compile l = .ok f ∧ d.unchained.compile l = .ok g ∧ g.params = f.params ∧
      g.source = f.source ∧ ∀ args, (g.call args).outcome = (f.call args).outcome := by
  rw [d.compile_unchained]
  cases h : d.compile l with
  | error error => exact .inl ⟨error, rfl, rfl⟩
  | ok f =>
    have hlinks := Declaration.links_ne_nil h
    exact .inr ⟨f, f.unchained, rfl, rfl, rfl, f.source_unchained hlinks,
      f.outcome_call_unchained hlinks⟩

end Formula
