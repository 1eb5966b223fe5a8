import Formula.Drawing
import Formula.Proofs.Simulation

/-!
# Calls that draw

A call that draws differs from one that does not only in the numbers that `random` gives: with a
supply of the number that the library has for it, the two are the same. Whatever is drawn, a call
has a result and invokes functions with as many arguments as they declare, if the functions of the
library have a value there.

## Main definitions

* `Library.IsTotal` — libraries whose functions have a value at what they declare.
* `Draws.Suits` — supplies of the number that a library has for `random`.

## Main statements

* `CompiledFunction.callDrawing_eq_call` — calls with a supply that suits the library.
* `CompiledFunction.safe_callDrawing` — calls with any supply, for a total library.
-/

namespace Formula

/-- Every function has a value at as many arguments as it declares. -/
def Library.IsTotal {T : Type} (l : Library T) : Prop :=
  ∀ name f, l.function? name = some f → ∀ args, f.Admits name args.length →
    ∃ x, f.apply args = .ok x

/-- Every number of the supply is the one that the library has for `random`. -/
def Draws.Suits (draws : Draws) (l : Library Float) : Prop :=
  ∀ g, l.function? Standard.drawing = some g → ∀ values n, g.apply values = .ok (draws.nth n)

theorem Draws.Suits.rest {draws : Draws} {l : Library Float} (h : draws.Suits l) :
    draws.rest.Suits l :=
  fun g hg values n => h g hg values (n + 1)

theorem Run.map_of_ok {T α β : Type} {r : Run T α} {a : α} (h : r.outcome = .ok a) (f : α → β) :
    f <$> r = { outcome := .ok (f a), trace := r.trace } := by
  rw [map_eq_pure_bind, bind_of_ok h]
  simp

namespace Drawing

variable {l : Library Float} {α β : Type} {post : α → Prop} {post' : β → Prop}

theorem invoke_of_draws {i : Invocation Float} (h : i.draws = true)
    (result : Except MissingArgument Float) (draws : Draws) :
    Drawing.invoke i result draws = (·, draws.rest) <$> Run.invoke i (.ok draws.first) := by
  rw [Drawing.invoke, if_pos h, map_eq_pure_bind]

theorem invoke_of_not_draws {i : Invocation Float} (h : i.draws = false)
    (result : Except MissingArgument Float) (draws : Draws) :
    Drawing.invoke i result draws = (·, draws) <$> Run.invoke i result := by
  rw [Drawing.invoke, if_neg (by simp [h]), map_eq_pure_bind]

/-! ## Supplies that suit the library -/

/-- From any supply that suits the library, the evaluation does what the run does and leaves such a
supply. A value of the run has the property. -/
structure Follows (l : Library Float) (post : α → Prop) (r : Drawing α) (r' : Run Float α) :
    Prop where
  value : ∀ a, r'.outcome = .ok a → post a
  eq : ∀ draws : Draws, draws.Suits l →
    ∃ draws' : Draws, draws'.Suits l ∧ r draws = (·, draws') <$> r'

theorem Follows.pure {a : α} (h : post a) : Follows l post (Pure.pure a) (Pure.pure a) where
  value _ ha := Except.ok.inj ha ▸ h
  eq draws suits := ⟨draws, suits, rfl⟩

theorem Follows.bind {r : Drawing α} {r' : Run Float α} {f : α → Drawing β} {f' : α → Run Float β}
    (h : Follows l post r r') (hf : ∀ a, post a → Follows l post' (f a) (f' a)) :
    Follows l post' (r >>= f) (r' >>= f') := by
  cases hr : r'.outcome with
  | error e =>
    refine ⟨?_, fun draws suits => ?_⟩
    · rw [Run.bind_of_error hr]
      exact nofun
    · obtain ⟨draws', suits', heq⟩ := h.eq draws suits
      refine ⟨draws', suits', ?_⟩
      show r draws >>= (fun p => f p.1 p.2) = _
      rw [heq, bind_map_left, map_bind, Run.bind_of_error hr, Run.bind_of_error hr]
  | ok a =>
    obtain ⟨hvalue, hnext⟩ := hf a (h.value a hr)
    refine ⟨?_, fun draws suits => ?_⟩
    · rw [Run.bind_of_ok hr]
      exact hvalue
    · obtain ⟨draws', suits', heq⟩ := h.eq draws suits
      obtain ⟨draws'', suits'', heq'⟩ := hnext draws' suits'
      refine ⟨draws'', suits'', ?_⟩
      show r draws >>= (fun p => f p.1 p.2) = _
      rw [heq, bind_map_left, map_bind, Run.bind_of_ok hr, Run.bind_of_ok hr, heq']

theorem Follows.invoke {i : Invocation Float} (h : i.draws = false)
    (result : Except MissingArgument Float) :
    Follows l (fun _ => True) (Drawing.invoke i result) (Run.invoke i result) where
  value _ _ := trivial
  eq draws suits := ⟨draws, suits, invoke_of_not_draws h result draws⟩

theorem Follows.function {name : String} {g : LibraryFunction Float}
    (found : l.function? name = some g) (values : List Float) :
    Follows l (fun _ => True) (Drawing.invoke (.function name values) (g.apply values))
      (Run.invoke (.function name values) (g.apply values)) := by
  by_cases hname : name = Standard.drawing
  · subst hname
    refine ⟨fun _ _ => trivial, fun draws suits => ⟨draws.rest, suits.rest, ?_⟩⟩
    rw [invoke_of_draws (by simp [Invocation.draws]), suits g found values 0]
    rfl
  · exact .invoke (by simpa [Invocation.draws] using hname) _

def follows (l : Library Float) : Simulation l Drawing (Run Float) where
  Rel := Follows l
  pure := .pure
  bind := .bind
  function found _ := .function found _
  unary _ _ y := .invoke rfl (.ok y)
  binary _ _ _ z := .invoke rfl (.ok z)

/-! ## Any supply -/

/-- Whatever is drawn, the evaluation ends in a value with the property, and invokes functions of
the library with as many arguments as they declare. -/
structure Safe (l : Library Float) (post : α → Prop) (r : Drawing α) : Prop where
  value : ∀ draws, ∃ a draws', (r draws).outcome = .ok (a, draws') ∧ post a
  trace : ∀ draws name values, .function name values ∈ (r draws).trace →
    ∃ g, l.function? name = some g ∧ g.Admits name values.length

theorem Safe.pure {a : α} (h : post a) : Safe l post (Pure.pure a) where
  value draws := ⟨a, draws, rfl, h⟩
  trace _ _ _ hmem := absurd hmem List.not_mem_nil

theorem Safe.bind {r : Drawing α} {f : α → Drawing β} (h : Safe l post r)
    (hf : ∀ a, post a → Safe l post' (f a)) : Safe l post' (r >>= f) := by
  have next (draws : Draws) : ∃ a draws', post a ∧
      (r >>= f) draws = { outcome := (f a draws').outcome,
                          trace := (r draws).trace ++ (f a draws').trace } := by
    obtain ⟨a, draws', hr, ha⟩ := h.value draws
    exact ⟨a, draws', ha, Run.bind_of_ok hr _⟩
  constructor
  · intro draws
    obtain ⟨a, draws', ha, heq⟩ := next draws
    rw [heq]
    exact (hf a ha).value draws'
  · intro draws name values hmem
    obtain ⟨a, draws', ha, heq⟩ := next draws
    rw [heq] at hmem
    rcases List.mem_append.1 hmem with hmem | hmem
    · exact h.trace draws name values hmem
    · exact (hf a ha).trace draws' name values hmem

/-- An invocation has a value if the callable gives it one, for one that is drawn always is. -/
theorem Safe.invoke {i : Invocation Float} {result : Except MissingArgument Float}
    (hresult : ∃ x, result = .ok x) (hi : ∀ name values, i = .function name values →
      ∃ g, l.function? name = some g ∧ g.Admits name values.length) :
    Safe l (fun _ => True) (Drawing.invoke i result) := by
  have recorded (draws : Draws) : ∃ x draws', Drawing.invoke i result draws =
      { outcome := .ok (x, draws'), trace := [i] } := by
    obtain ⟨x, rfl⟩ := hresult
    cases h : i.draws with
    | true => exact ⟨draws.first, draws.rest, (invoke_of_draws h _ _).trans (Run.map_of_ok rfl _)⟩
    | false => exact ⟨x, draws, (invoke_of_not_draws h _ _).trans (Run.map_of_ok rfl _)⟩
  constructor
  · intro draws
    obtain ⟨x, draws', heq⟩ := recorded draws
    exact ⟨x, draws', by rw [heq], trivial⟩
  · intro draws name values hmem
    obtain ⟨x, draws', heq⟩ := recorded draws
    rw [heq] at hmem
    exact hi name values (List.mem_singleton.1 hmem).symm

/-- The second evaluation plays no part in this. -/
def safe (total : l.IsTotal) : Simulation l Drawing Drawing where
  Rel post r _ := Safe l post r
  pure := .pure
  bind := .bind
  function found fits := .invoke (total _ _ found _ fits) fun _ _ h => by
    cases h
    exact ⟨_, found, fits⟩
  unary _ _ y := .invoke ⟨y, rfl⟩ nofun
  binary _ _ _ z := .invoke ⟨z, rfl⟩ nofun

end Drawing

/-! ## Calls -/

namespace CompiledFunction

variable {l : Library Float} {f : CompiledFunction Float} {args : List Float}

/-- With a supply of the number that the library has for `random`, drawing makes no difference. -/
theorem callDrawing_eq_call (resolved : f.Resolved l) (hargs : f.arity ≤ args.length)
    {draws : Draws} (suits : draws.Suits l) : f.callDrawing draws args = f.call args := by
  obtain ⟨draws', -, heq⟩ := ((Drawing.follows l).call resolved hargs hargs rfl).eq draws suits
  show Prod.fst <$> f.callIn (m := Drawing) args draws = _
  rw [heq, Functor.map_map]
  exact id_map _

/-- Whatever is drawn, a call of a function of a total library has a result. -/
theorem safe_callDrawing (total : l.IsTotal) (resolved : f.Resolved l)
    (hargs : f.arity ≤ args.length) (draws : Draws) :
    (∃ r, (f.callDrawing draws args).outcome = .ok r) ∧
      ∀ name values, .function name values ∈ (f.callDrawing draws args).trace →
        ∃ g, l.function? name = some g ∧ g.Admits name values.length := by
  have safe := (Drawing.safe total).call resolved hargs hargs rfl
  obtain ⟨r, draws', hr, -⟩ := safe.value draws
  have heq : f.callDrawing draws args = { outcome := .ok r, trace := _ } :=
    Run.map_of_ok hr Prod.fst
  rw [heq]
  exact ⟨⟨r, rfl⟩, safe.trace draws⟩

end CompiledFunction

end Formula
