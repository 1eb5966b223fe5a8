import Formula.Proofs.Lookup
import Formula.Proofs.Rendering.Tree

/-!
# Nodes and their trees

A tree shows the names in a node but not what they stand for. In one scope that makes no
difference: names have one meaning there, so a resolved node can be told from its tree.

## Main definitions

* `Scope.Resolved` — a node in which every meaning is the one its scope gives.

## Main statements

* `Scope.Resolved.tree_injective` — resolved nodes with the same tree are the same.
-/

namespace Formula

open Rendered

variable {T : Type} [Number T]

/-- Every name and operator in the node has the meaning that the scope gives it, and every function
has as many arguments as it declares. -/
inductive Scope.Resolved (s : Scope T) : Node T → Prop where
  | parameter {name : String} {index : Nat} (found : s.parameter name = .ok index) :
      Resolved s (.parameter name index)
  | constant {name : String} {value : T} (found : s.constant name = .ok value) :
      Resolved s (.constant name value)
  | number {lexeme : String} {value : T} (found : Number.ofLiteral? lexeme = some value) :
      Resolved s (.number lexeme value)
  | group {inner : Node T} (h : Resolved s inner) : Resolved s (.group inner)
  | call {entry : FunctionEntry T} {args : List (Node T)}
      (found : s.library.function? entry.name = some entry.function)
      (fits : entry.function.Admits entry.name args.length)
      (h : ∀ n ∈ args, Resolved s n) : Resolved s (.call entry args)
  | abs {operand : Node T} (h : Resolved s operand) : Resolved s (.abs operand)
  | negate {operand : Node T} (h : Resolved s operand) : Resolved s (.negate operand)
  | native {op : BinaryOp} {l r : Node T} (hl : Resolved s l) (hr : Resolved s r) :
      Resolved s (.native op l r)
  | unary {op : UnaryOperation} {apply : T → T} {operand : Node T}
      (found : s.library.unary op = some apply) (h : Resolved s operand) :
      Resolved s (.unary op apply operand)
  | binary {op : BinaryOp} {apply : T → T → T} {l r : Node T}
      (found : s.library.binary op = some apply) (hl : Resolved s l) (hr : Resolved s r) :
      Resolved s (.binary op apply l r)

namespace Scope

variable {s : Scope T}

/-! ## Resolving -/

theorem resolved_literal {t : Token} {n : Node T} (h : s.resolveLiteral t = .ok n) :
    s.Resolved n := by
  obtain ⟨-, i, hi, rfl⟩ | ⟨-, v, hv, rfl⟩ | ⟨-, v, hv, rfl⟩ := resolveLiteral_cases h
  · exact .parameter hi
  · exact .constant hv
  · exact .number hv

theorem resolved_unaryFunction {word : String} {entry : FunctionEntry T} {n : Node T}
    (hentry : s.unaryFunction? word = some entry) (h : s.Resolved n) :
    s.Resolved (.call entry [n]) :=
  .call (s.plainFunction?_eq_some (s.plainFunction?_of_unaryFunction? hentry)).2
    (s.admits_of_unaryFunction? hentry) (by simpa using h)

theorem resolved_abs {n : Node T} (h : s.Resolved n) : s.Resolved (s.resolveAbs n) := by
  obtain ⟨apply, hop, hn⟩ | ⟨-, entry, hentry, hn⟩ | ⟨-, -, hn⟩ := s.resolveAbs_cases n <;> rw [hn]
  · exact .unary hop h
  · exact resolved_unaryFunction hentry h
  · exact .abs h

theorem resolved_unary {op : UnaryOp} {n n' : Node T} (h : s.Resolved n)
    (hn : s.resolveUnary op n = .ok n') : s.Resolved n' := by
  cases op with
  | negate =>
    cases hn
    obtain ⟨apply, hop, hn⟩ | ⟨-, hn⟩ := s.resolveNegate_cases n <;> rw [hn]
    · exact .unary hop h
    · exact .negate h
  | factorial =>
    obtain ⟨apply, hop, rfl⟩ | ⟨-, entry, hentry, rfl⟩ := resolveFactorial_cases hn
    · exact .unary hop h
    · exact resolved_unaryFunction hentry h

theorem resolved_binary (op : BinaryOp) {l r : Node T} (hl : s.Resolved l) (hr : s.Resolved r) :
    s.Resolved (s.resolveBinary op l r) := by
  obtain ⟨apply, hop, hn⟩ | ⟨-, hn⟩ := s.resolveBinary_cases op l r <;> rw [hn]
  · exact .binary hop hl hr
  · exact .native hl hr

mutual

theorem resolved_resolve : ∀ {e : Expr} {n : Node T}, s.resolve e = .ok n → s.Resolved n
  | .literal t, n, h => resolved_literal (by rwa [resolve] at h)
  | .group e, n, h => by
    obtain ⟨m, hm, rfl⟩ := resolve_group h
    exact .group (resolved_resolve hm)
  | .abs e, n, h => by
    obtain ⟨m, hm, rfl⟩ := resolve_abs h
    exact resolved_abs (resolved_resolve hm)
  | .call name variant es, n, h => by
    obtain ⟨entry, nodes, subscript, hentry, hnodes, hsubscript, rfl⟩ := resolve_call h
    refine .call (function?_of_function hentry) ?_ fun m hm => ?_
    · rw [List.length_append, length_resolveAll hnodes, length_resolveOption hsubscript]
      exact admits_of_function hentry
    rcases List.mem_append.1 hm with hm | hm
    · exact resolved_resolveAll hnodes m hm
    · exact resolved_resolveOption hsubscript m hm
  | .unary op e, n, h => by
    obtain ⟨m, hm, hn⟩ := resolve_unary h
    exact resolved_unary (resolved_resolve hm) hn
  | .binary op left right, n, h => by
    obtain ⟨a, b, ha, hb, rfl⟩ := resolve_binary h
    exact resolved_binary op (resolved_resolve ha) (resolved_resolve hb)

theorem resolved_resolveOption : ∀ {e : Option Expr} {nodes : List (Node T)},
    s.resolveOption e = .ok nodes → ∀ n ∈ nodes, s.Resolved n
  | none, nodes, h => by
    rw [resolveOption] at h
    cases h
    simp
  | some e, nodes, h => by
    obtain ⟨n, hn, rfl⟩ := resolveOption_some h
    simpa using resolved_resolve hn

theorem resolved_resolveAll : ∀ {es : List Expr} {nodes : List (Node T)},
    s.resolveAll es = .ok nodes → ∀ n ∈ nodes, s.Resolved n
  | [], nodes, h => by
    rw [resolveAll] at h
    cases h
    simp
  | e :: es, nodes, h => by
    obtain ⟨n, ns, hn, hns, rfl⟩ := resolveAll_cons h
    intro m hm
    rcases List.mem_cons.1 hm with rfl | hm
    · exact resolved_resolve hn
    · exact resolved_resolveAll hns m hm

end

/-! ## Injectivity -/

omit [Number T]

theorem functions_ne_operations (a b : String) : "functions." ++ a ≠ "operations." ++ b := by
  intro h
  simpa using congrArg String.toList h

theorem functions_ne_abs (a : String) : "functions." ++ a ≠ "abs" := by
  intro h
  simpa using congrArg String.toList h

theorem operations_ne_abs (a : String) : "operations." ++ a ≠ "abs" := by
  intro h
  simpa using congrArg String.toList h

theorem unaryName_injective {op op' : UnaryOperation} (h : op.name = op'.name) : op = op' := by
  revert h
  cases op <;> cases op' <;> decide

theorem binaryName_injective {op op' : BinaryOp} (h : op.name = op'.name) : op = op' := by
  revert h
  cases op <;> cases op' <;> decide

theorem unaryName_ne_binaryName (op : UnaryOperation) (op' : BinaryOp) : op.name ≠ op'.name := by
  cases op <;> cases op' <;> decide

theorem call_injective {f f' : String} {es es' : List Expr}
    (h : Expr.call (named .function f) none es = .call (named .function f') none es') :
    f = f' ∧ es = es' := by
  injection h with hf _ hes
  exact ⟨congrArg Token.lexeme hf, hes⟩

/-- A library has one function under a name. -/
theorem entry_injective {l : Library T} {entry entry' : FunctionEntry T}
    (found : l.function? entry.name = some entry.function)
    (found' : l.function? entry'.name = some entry'.function) (h : entry.name = entry'.name) :
    entry = entry' := by
  obtain ⟨name, function⟩ := entry
  obtain ⟨name', function'⟩ := entry'
  cases h
  cases found.symm.trans found'
  rfl

theorem tree_ne_unary (n : Node T) (op : UnaryOp) (e : Expr) : n.tree ≠ .unary op e := by
  cases n <;> exact nofun

theorem eq_of_map_eq {α β : Type} {f : α → β} {xs ys : List α}
    (h : ∀ x ∈ xs, ∀ y ∈ ys, f x = f y → x = y) (hmap : xs.map f = ys.map f) : xs = ys := by
  induction xs generalizing ys with
  | nil => exact (List.map_eq_nil_iff.1 hmap.symm).symm
  | cons x xs ih =>
    cases ys with
    | nil => cases hmap
    | cons y ys =>
      injection hmap with hfirst hrest
      rw [h x (by simp) y (by simp) hfirst,
        ih (fun x' hx y' hy => h x' (by simp [hx]) y' (by simp [hy])) hrest]

variable [Number T]

/-- Resolved nodes with the same tree are the same. -/
theorem Resolved.tree_injective {n m : Node T} (hn : s.Resolved n) (hm : s.Resolved m)
    (h : n.tree = m.tree) : n = m := by
  induction hn generalizing m with
  | parameter found =>
    cases hm with
    | parameter found' =>
      cases h
      cases found.symm.trans found'
      rfl
    | _ => cases h
  | constant found =>
    cases hm with
    | constant found' =>
      have htext := congrArg Token.lexeme (Expr.literal.inj h)
      cases (String.append_right_inj _).1 htext
      cases found.symm.trans found'
      rfl
    | _ => cases h
  | number found =>
    cases hm with
    | number found' =>
      cases h
      cases found.symm.trans found'
      rfl
    | _ => cases h
  | group _ ih =>
    cases hm with
    | group h' => rw [ih h' (Expr.group.inj h)]
    | negate => exact absurd (Expr.group.inj h) (tree_ne_unary _ _ _)
    | _ => cases h
  | call found _ _ ih =>
    cases hm with
    | call found' _ h' =>
      obtain ⟨hname, htrees⟩ := call_injective h
      rw [trees_eq_map, trees_eq_map] at htrees
      rw [entry_injective found found' ((String.append_right_inj _).1 hname),
        eq_of_map_eq (fun n hn m hm => ih n hn (h' m hm)) htrees]
    | abs => exact absurd (call_injective h).1 (functions_ne_abs _)
    | unary | binary => exact absurd (call_injective h).1 (functions_ne_operations _ _)
    | _ => cases h
  | abs _ ih =>
    cases hm with
    | call => exact absurd (call_injective h).1.symm (functions_ne_abs _)
    | abs h' =>
      have htrees := (call_injective h).2
      rw [ih h' (List.cons.inj htrees).1]
    | unary | binary => exact absurd (call_injective h).1.symm (operations_ne_abs _)
    | _ => cases h
  | negate _ ih =>
    cases hm with
    | group => exact absurd (Expr.group.inj h).symm (tree_ne_unary _ _ _)
    | negate h' => rw [ih h' (Expr.unary.inj (Expr.group.inj h)).2]
    | _ => cases h
  | native _ _ ihl ihr =>
    cases hm with
    | native hl hr =>
      obtain ⟨rfl, hleft, hright⟩ := Expr.binary.inj h
      rw [ihl hl hleft, ihr hr hright]
    | _ => cases h
  | unary found _ ih =>
    cases hm with
    | call => exact absurd (call_injective h).1.symm (functions_ne_operations _ _)
    | abs => exact absurd (call_injective h).1 (operations_ne_abs _)
    | unary found' h' =>
      obtain ⟨hname, htrees⟩ := call_injective h
      cases unaryName_injective ((String.append_right_inj _).1 hname)
      cases found.symm.trans found'
      rw [ih h' (List.cons.inj htrees).1]
    | binary =>
      have hname := (String.append_right_inj _).1 (call_injective h).1
      exact absurd hname (unaryName_ne_binaryName _ _)
    | _ => cases h
  | binary found _ _ ihl ihr =>
    cases hm with
    | call => exact absurd (call_injective h).1.symm (functions_ne_operations _ _)
    | abs => exact absurd (call_injective h).1 (operations_ne_abs _)
    | unary =>
      have hname := (String.append_right_inj _).1 (call_injective h).1
      exact absurd hname.symm (unaryName_ne_binaryName _ _)
    | binary found' hl hr =>
      obtain ⟨hname, htrees⟩ := call_injective h
      cases binaryName_injective ((String.append_right_inj _).1 hname)
      cases found.symm.trans found'
      injection htrees with hleft hright
      injection hright with hright
      rw [ihl hl hleft, ihr hr hright]
    | _ => cases h

end Scope

end Formula
