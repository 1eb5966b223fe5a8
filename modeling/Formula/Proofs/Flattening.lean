import Formula.Number.Float
import Formula.Proofs.Conditions
import Formula.Proofs.Stages

/-!
# Chains and their links

A chain of comparisons and the pair of its operands and comparisons hold the same information. A
clause is built from the two lists link by link, and every pair of lists that fit together is that
of exactly one clause. So a resolved clause has as many operands and comparisons as the chain it
comes from, and no comparison is left out when it is evaluated.

A condition keeps its comparisons together with the operands after them, so that they cannot but
fit. Kept in a list of their own and put side by side with the operands where the condition is shown
or evaluated, they make the same condition: none is ever left over.

## Main definitions

* `Clause.ofLinks?` — the clause with given operands and comparisons.
* `Condition.Lists` — conditions as two lists.
* `Condition.Holds` — every comparison holds between the operands on both sides of it.

## Main statements

* `Clause.ofLinks?_eq_some_iff` — building a clause is the inverse of taking it apart.
* `Scope.resolveLists_eq_ok` — a clause as two lists is the condition of the clause.
* `Condition.outcome_holds_iff` — evaluation reaches all comparisons of a condition that holds.
* `flattening_is_invertible` — both, for all clauses and for what they are compiled to.
-/

namespace Formula

/-! ## Clauses -/

namespace Clause

/-- The clause with the given operands and comparisons. The first comparison is between the first
two operands, and each further one has all before it on its left. Nothing may be left over. -/
def ofLinks? : List Expr → List Comparison → Option Clause
  | left :: right :: operands, op :: ops =>
    if operands.length = ops.length then some ((compare left op right).extend (ops.zip operands))
    else none
  | _, _ => none

theorem extend_append (c : Clause) (links links' : List (Comparison × Expr)) :
    c.extend (links ++ links') = (c.extend links).extend links' := by
  induction links generalizing c with
  | nil => rfl
  | cons link links ih => exact ih (chain c link.1 link.2)

/-- A clause is a first comparison and the links after it. -/
theorem exists_eq_extend (c : Clause) :
    ∃ left op right links, c = (compare left op right).extend links := by
  induction c with
  | compare left op right => exact ⟨left, op, right, [], rfl⟩
  | chain previous op right ih =>
    obtain ⟨left, op', right', links, rfl⟩ := ih
    exact ⟨left, op', right', links ++ [(op, right)], by rw [extend_append]; rfl⟩

theorem ofLinks?_operands_comparisons (c : Clause) :
    ofLinks? c.operands c.comparisons = some c := by
  obtain ⟨left, op, right, links, rfl⟩ := c.exists_eq_extend
  have hzip : links = (links.map Prod.fst).zip (links.map Prod.snd) := List.zip_of_prod rfl rfl
  simp [operands, comparisons, ofLinks?, ← hzip]

/-- Two lists are the operands and the comparisons of the clause that is built from them. -/
theorem ofLinks?_eq_some_iff {es : List Expr} {ops : List Comparison} {c : Clause} :
    ofLinks? es ops = some c ↔ c.operands = es ∧ c.comparisons = ops := by
  constructor
  · intro h
    unfold ofLinks? at h
    split at h
    · next left right es op ops =>
      split at h
      · next hlength =>
        cases h
        simp [operands, comparisons, List.map_fst_zip, List.map_snd_zip, hlength]
      · cases h
    · cases h
  · rintro ⟨rfl, rfl⟩
    exact c.ofLinks?_operands_comparisons

/-- Lists that fit together are those of a clause. -/
theorem exists_ofLinks? {es : List Expr} {ops : List Comparison} (hops : ops ≠ [])
    (hlength : es.length = ops.length + 1) : ∃ c, ofLinks? es ops = some c := by
  obtain ⟨op, ops, rfl⟩ := List.exists_cons_of_ne_nil hops
  obtain ⟨left, es, rfl⟩ := List.exists_cons_of_length_eq_add_one hlength
  obtain ⟨right, es, rfl⟩ := List.exists_cons_of_length_eq_add_one (Nat.add_right_cancel hlength)
  exact ⟨_, if_pos (by simpa using hlength)⟩

theorem comparisons_ne_nil (c : Clause) : c.comparisons ≠ [] := by
  cases c <;> simp [comparisons]

end Clause

/-! ## Conditions as two lists -/

namespace Condition

variable {T : Type}

/-- A list of operands and a list of comparisons, of any lengths. -/
structure Lists (T : Type) where
  operands : List (Node T)
  comparisons : List Comparison

def lists (c : Condition T) : Lists T :=
  { operands := c.operands, comparisons := c.comparisons }

namespace Lists

/-- The comparisons side by side with the pairs of consecutive operands. -/
def sources (c : Lists T) : List String :=
  ((c.operands.zip c.operands.tail).zip c.comparisons).map fun (pair, op) =>
    pair.1.source ++ " " ++ op.symbol ++ " " ++ pair.2.source

def source (c : Lists T) : String :=
  " && ".intercalate c.sources

/-- The comparisons side by side with the operands after the first. -/
def holds [Number T] (args : List T) (c : Lists T) : Run T Bool :=
  match c.operands with
  | [] => pure true
  | first :: rest => do
    let left ← first.eval args
    linksHold args left (c.comparisons.zip rest)

end Lists

theorem sources_lists (c : Condition T) : c.lists.sources = linkSources c.first.source c.links := by
  obtain ⟨first, links⟩ := c
  induction links generalizing first with
  | nil => rfl
  | cons link links ih =>
    rw [linkSources, ← ih link.2]
    simp [lists, Lists.sources, operands, comparisons]

theorem source_lists (c : Condition T) : c.lists.source = c.source := by
  rw [Lists.source, sources_lists, source]

theorem holds_lists [Number T] (args : List T) (c : Condition T) :
    c.lists.holds args = c.holds args := by
  have hzip : c.links = c.comparisons.zip (c.links.map Prod.snd) := List.zip_of_prod rfl rfl
  show (c.first.eval args >>= fun left =>
    linksHold args left (c.comparisons.zip (c.links.map Prod.snd))) = _
  rw [← hzip, holds_eq]

end Condition

namespace Scope

variable {T : Type} [Number T] {s : Scope T} {c : Clause}

/-- The operands of a clause resolved one after another, and its comparisons. -/
def resolveLists (s : Scope T) (c : Clause) : Except CompileError (Condition.Lists T) := do
  let operands ← s.resolveAll c.operands
  return { operands, comparisons := c.comparisons }

theorem resolveLists_eq (s : Scope T) (c : Clause) :
    s.resolveLists c = (s.resolveClause c).map Condition.lists := by
  rw [resolveLists, resolveAll_operands]
  cases h : s.resolveClause c with
  | error e => rfl
  | ok condition =>
    rw [(resolveClause_eq_ok h).2]
    rfl

/-- A clause resolved to two lists has one operand more than comparisons, and is shown and evaluated
like the condition of the clause. -/
theorem resolveLists_eq_ok {lists : Condition.Lists T} (h : s.resolveLists c = .ok lists) :
    lists.operands.length = lists.comparisons.length + 1 ∧
      ∃ condition, s.resolveClause c = .ok condition ∧ lists.source = condition.source ∧
        ∀ args, lists.holds args = condition.holds args := by
  constructor
  · obtain ⟨operands, hoperands, h⟩ := bind_eq_ok.1 h
    cases h
    rw [length_resolveAll hoperands, c.length_operands]
  · rw [resolveLists_eq] at h
    cases hcondition : s.resolveClause c with
    | error e =>
      rw [hcondition] at h
      cases h
    | ok condition =>
      rw [hcondition] at h
      cases h
      exact ⟨condition, rfl, condition.source_lists, fun args => condition.holds_lists args⟩

end Scope

/-! ## Comparisons that hold -/

theorem allM_eq_ok_true_iff {ε α : Type} {p : α → Except ε Bool} {xs : List α} :
    xs.allM p = .ok true ↔ ∀ x ∈ xs, p x = .ok true := by
  induction xs with
  | nil => exact iff_of_true rfl nofun
  | cons x xs ih =>
    rw [allM_cons, bind_eq_ok, List.forall_mem_cons, ← ih]
    constructor
    · rintro ⟨b, hb, hxs⟩
      cases b with
      | false => cases hxs
      | true => exact ⟨hb, hxs⟩
    · rintro ⟨hx, hxs⟩
      exact ⟨true, hx, hxs⟩

namespace Condition

variable {T : Type} [Number T] {args : List T}

/-- Every comparison holds between the values of the operands on both sides of it. -/
def Holds (args : List T) (c : Condition T) : Prop :=
  ∀ i op, c.comparisons[i]? = some op → ∃ left right a b,
    c.operands[i]? = some left ∧ c.operands[i + 1]? = some right ∧
      (left.eval args).outcome = .ok a ∧ (right.eval args).outcome = .ok b ∧ op.holds a b = true

theorem compare_eq_ok_true_iff {left right : Node T} {op : Comparison} :
    compare args (left, op, right) = .ok true ↔ ∃ a b,
      (left.eval args).outcome = .ok a ∧ (right.eval args).outcome = .ok b ∧
        op.holds a b = true := by
  rw [compare, bind_eq_ok]
  constructor
  · rintro ⟨a, ha, h⟩
    obtain ⟨b, hb, h⟩ := bind_eq_ok.1 h
    exact ⟨a, b, ha, hb, Except.ok.inj h⟩
  · rintro ⟨a, b, ha, hb, h⟩
    exact ⟨a, ha, bind_eq_ok.2 ⟨b, hb, congrArg Except.ok h⟩⟩

omit [Number T] in
/-- The comparison at a position is between the operands at that position and the next. -/
theorem mem_pairs_iff {c : Condition T} {left right : Node T} {op : Comparison} :
    (left, op, right) ∈ c.pairs ↔ ∃ i, c.operands[i]? = some left ∧ c.comparisons[i]? = some op ∧
      c.operands[i + 1]? = some right := by
  rw [pairs, List.mem_iff_getElem?]
  refine exists_congr fun i => ?_
  rw [List.getElem?_zip_eq_some, List.getElem?_zip_eq_some, List.getElem?_tail]

omit [Number T] in
theorem length_operands (c : Condition T) : c.operands.length = c.comparisons.length + 1 := by
  simp [operands, comparisons]

omit [Number T] in
/-- A comparison has an operand on both sides. -/
theorem exists_operands {c : Condition T} {i : Nat} {op : Comparison}
    (h : c.comparisons[i]? = some op) :
    ∃ left right, c.operands[i]? = some left ∧ c.operands[i + 1]? = some right := by
  have hlength := c.length_operands
  obtain ⟨hi, -⟩ := List.getElem?_eq_some_iff.1 h
  exact ⟨_, _, List.getElem?_eq_getElem (by omega), List.getElem?_eq_getElem (by omega)⟩

/-- The evaluation of a condition gives true only after all its comparisons have held. -/
theorem outcome_holds_iff {c : Condition T} (hc : c.links ≠ []) :
    (c.holds args).outcome = .ok true ↔ c.Holds args := by
  rw [outcome_holds hc, allM_eq_ok_true_iff]
  constructor
  · intro h i op hop
    obtain ⟨left, right, hleft, hright⟩ := exists_operands hop
    have hpair := h (left, op, right) (mem_pairs_iff.2 ⟨i, hleft, hop, hright⟩)
    obtain ⟨a, b, hvalues⟩ := compare_eq_ok_true_iff.1 hpair
    exact ⟨left, right, a, b, hleft, hright, hvalues⟩
  · rintro h ⟨left, op, right⟩ hpair
    obtain ⟨i, hleft, hop, hright⟩ := mem_pairs_iff.1 hpair
    obtain ⟨left', right', a, b, hleft', hright', hvalues⟩ := h i op hop
    cases hleft.symm.trans hleft'
    cases hright.symm.trans hright'
    exact compare_eq_ok_true_iff.2 ⟨a, b, hvalues⟩

end Condition

/-- A clause has at least one comparison and one operand more, and is built from these again; all
lists of such lengths are the operands and the comparisons of the clause built from them. Every
condition of a compiled function has the comparisons of a clause between its resolved operands, and
holds if and only if each of them does. -/
theorem flattening_is_invertible {T : Type} [Number T] :
    (∀ c : Clause, 1 ≤ c.comparisons.length ∧ c.operands.length = c.comparisons.length + 1 ∧
      Clause.ofLinks? c.operands c.comparisons = some c) ∧
    (∀ (es : List Expr) (ops : List Comparison), 1 ≤ ops.length → es.length = ops.length + 1 →
      ∃ c, Clause.ofLinks? es ops = some c ∧ c.operands = es ∧ c.comparisons = ops) ∧
    ∀ (l : Library T) (d : Declaration) (f : CompiledFunction T), d.compile l = .ok f →
      ∀ condition ∈ f.conditions, ∃ c ∈ d.clauses,
        (d.scope l).resolveAll c.operands = .ok condition.operands ∧
        condition.comparisons = c.comparisons ∧
        condition.operands.length = condition.comparisons.length + 1 ∧
        ∀ args, (condition.holds args).outcome = .ok true ↔ condition.Holds args := by
  refine ⟨fun c => ?_, fun es ops hops hlength => ?_, fun l d f h condition hcondition => ?_⟩
  · exact ⟨List.length_pos_iff.2 c.comparisons_ne_nil, c.length_operands,
      c.ofLinks?_operands_comparisons⟩
  · obtain ⟨c, hc⟩ := Clause.exists_ofLinks? (List.length_pos_iff.1 hops) hlength
    exact ⟨c, hc, Clause.ofLinks?_eq_some_iff.1 hc⟩
  · obtain ⟨-, -, hconditions⟩ := Declaration.compile_eq_ok h
    obtain ⟨c, hc, hresolved⟩ := Scope.exists_of_mem_resolveClauses hconditions hcondition
    obtain ⟨hoperands, hcomparisons⟩ := Scope.resolveClause_eq_ok hresolved
    exact ⟨c, hc, hoperands, hcomparisons.symm, condition.length_operands,
      fun args => Condition.outcome_holds_iff (Scope.links_ne_nil hresolved)⟩

/-- `f(x, y) = { x < y <= x } y`. -/
def betweenBounds : Declaration :=
  let x : Token := { kind := .identifier, lexeme := "x", offset := 2 }
  let y : Token := { kind := .identifier, lexeme := "y", offset := 5 }
  { name := { kind := .identifier, lexeme := "f", offset := 0 }
    params := [x, y]
    body := .literal y
    clauses := [(Clause.compare (.literal x) .less (.literal y)).chain .lessEqual (.literal x)] }

theorem flattening_is_invertible_between :
    let x : Expr := .literal { kind := .identifier, lexeme := "x", offset := 2 }
    let y : Expr := .literal { kind := .identifier, lexeme := "y", offset := 5 }
    (∃ c, Clause.ofLinks? [x, y, x] [.less, .lessEqual] = some c ∧ c.operands = [x, y, x] ∧
      c.comparisons = [.less, .lessEqual]) ∧
    ∃ f, betweenBounds.compile (Library.empty : Library Float) = .ok f ∧
      ∃ condition ∈ f.conditions, condition.comparisons = [.less, .lessEqual] ∧
        condition.operands.length = 3 ∧
        ((condition.holds [1, 2]).outcome = .ok true ↔ condition.Holds [1, 2]) := by
  intro x y
  obtain ⟨-, built, compiled⟩ := @flattening_is_invertible Float _
  obtain ⟨c, -, -, -, hlength, hholds⟩ :=
    compiled Library.empty betweenBounds _ rfl _ (List.mem_singleton_self _)
  exact ⟨built [x, y, x] [.less, .lessEqual] (by decide) (by decide), _, rfl, _,
    List.mem_singleton_self _, rfl, hlength, hholds [1, 2]⟩

end Formula
