import Formula.Scope

/-!
# The function that a word names

A scope searches all registered names for those a word may stand for. This module says which names
these are, so that the search is a look-up: a word `w` names the function registered as `w`, and
with a subscript the one registered as `w_`. Only the empty word names two functions, `_` and the
one with the empty name, and the first of them counts.

## Main statements

* `Scope.plainFunction?_eq`, `Scope.variantFunction?_eq` — the search as a look-up.
* `Scope.function_eq` — what a call means.
* `Scope.admits_of_function` — the number of arguments of a call that means something.
* `function_by_registered_name` — the two registered names that a call depends on.
-/

namespace Formula

namespace FunctionName

/-- The registered names a word stands for without a subscript, the one that counts first. -/
def plainNames (word : String) : List String :=
  if word = "" then ["_", ""]
  else if word.toList.getLast? = some variantMark then []
  else [word]

/-- The registered names a word stands for with a subscript. -/
def subscriptedNames (word : String) : List String :=
  if word = "" then [] else [word.push variantMark]

/-- A name that ends in the mark is the mark put after its canonical name. -/
theorem eq_canonical_push {name : String} (h : name.toList.getLast? = some variantMark) :
    name = (canonical name).push variantMark := by
  obtain ⟨front, hfront⟩ := List.getLast?_eq_some_iff.1 h
  rw [canonical, if_pos h, ← String.toList_inj]
  simp [hfront]

theorem canonical_push (word : String) :
    canonical (word.push variantMark) = word := by
  rw [canonical, if_pos (by simp), ← String.toList_inj]
  simp

theorem acceptsVariant_push (word : String) :
    acceptsVariant (word.push variantMark) = true ↔ word ≠ "" := by
  simp [acceptsVariant, List.length_pos_iff]

/-- A name either ends in the mark or is its own canonical name. -/
theorem name_cases (name : String) :
    (∃ word : String, name = word.push variantMark) ∨
      name.toList.getLast? ≠ some variantMark ∧ canonical name = name ∧
        acceptsVariant name = false := by
  by_cases h : name.toList.getLast? = some variantMark
  · exact .inl ⟨_, eq_canonical_push h⟩
  · exact .inr ⟨h, by rw [canonical, if_neg h], by simp [acceptsVariant, h]⟩

theorem mem_plainNames_push (stem word : String) :
    stem.push variantMark ∈ plainNames word ↔ stem = "" ∧ stem = word := by
  unfold plainNames
  split
  · next hword =>
    subst hword
    have hpush : stem.push variantMark = "_" ↔ stem = "" := by
      rw [← String.toList_inj, String.toList_push]
      simp [variantMark]
    simp [hpush]
  split
  · simp_all
  · next hword hlast =>
    have hne : stem.push variantMark ≠ word := by
      rintro rfl
      simp at hlast
    simp_all

theorem mem_plainNames_of_ne {name : String} (hlast : name.toList.getLast? ≠ some variantMark)
    (word : String) : name ∈ plainNames word ↔ name = word := by
  unfold plainNames
  split
  · next hword =>
    have hne : name ≠ "_" := by
      rintro rfl
      exact hlast rfl
    simp [hword, hne]
  split
  · next hmark =>
    have hne : name ≠ word := by
      rintro rfl
      exact hlast hmark
    simp [hne]
  · simp

theorem isPlain_iff (name word : String) :
    (!acceptsVariant name && canonical name == word) = true ↔ name ∈ plainNames word := by
  obtain ⟨stem, rfl⟩ | ⟨hlast, hname, hplain⟩ := name_cases name
  · rw [mem_plainNames_push, canonical_push, Bool.and_eq_true, Bool.not_eq_true',
      ← Bool.not_eq_true, acceptsVariant_push]
    simp
  · rw [mem_plainNames_of_ne hlast, hname, hplain]
    simp

theorem isSubscripted_iff (name word : String) :
    (acceptsVariant name && canonical name == word) = true ↔ name ∈ subscriptedNames word := by
  unfold subscriptedNames
  obtain ⟨stem, rfl⟩ | ⟨hlast, hname, hplain⟩ := name_cases name
  · rw [canonical_push, Bool.and_eq_true, acceptsVariant_push, beq_iff_eq]
    have hinj : stem.push variantMark = word.push variantMark ↔
        stem = word := by simp [← String.toList_inj]
    split <;> simp_all
  · rw [hplain]
    split
    · simp
    · have hne : name ≠ word.push variantMark := by
        rintro rfl
        simp at hlast
      simp [hne]

/-- The names that a word stands for differ from it in the mark only. -/
theorem canonical_of_mem {name word : String} {subscripted : Bool}
    (h : name ∈ if subscripted then subscriptedNames word else plainNames word) :
    acceptsVariant name = subscripted ∧ canonical name = word := by
  cases subscripted with
  | false =>
    have := (isPlain_iff name word).2 h
    grind
  | true =>
    have := (isSubscripted_iff name word).2 h
    grind

theorem eq_of_canonical {name word : String} (hvariant : acceptsVariant name = false)
    (hname : canonical name = word) (hword : word ≠ "") : name = word := by
  obtain ⟨stem, rfl⟩ | ⟨-, hcanonical, -⟩ := name_cases name
  · rw [canonical_push] at hname
    subst hname
    rw [(acceptsVariant_push stem).2 hword] at hvariant
    cases hvariant
  · exact hcanonical.symm.trans hname

theorem plainNames_sorted (word : String) : (plainNames word).Pairwise fun a b => b < a := by
  unfold plainNames
  split
  · simp only [List.pairwise_cons, List.mem_singleton, forall_eq]
    exact ⟨by decide, by simp⟩
  · split <;> simp

theorem subscriptedNames_sorted (word : String) :
    (subscriptedNames word).Pairwise fun a b => b < a := by
  unfold subscriptedNames
  split <;> simp

end FunctionName

namespace Registry

variable {α : Type} {entries : List (String × α)}

/-- Among sorted entries, the last whose name is `n` or one of some smaller names. -/
theorem getLast?_filter_or (sorted : entries.Pairwise fun a b => a.1 < b.1) (p : String → Bool)
    (n : String) (hp : ∀ m, p m = true → m < n) :
    (entries.filter fun e => e.1 == n || p e.1).getLast? =
      ((entries.lookup n).map (n, ·)).or (entries.filter fun e => p e.1).getLast? := by
  induction entries with
  | nil => rfl
  | cons e rest ih =>
    obtain ⟨hfirst, hrest⟩ := List.pairwise_cons.1 sorted
    rw [lookup_cons_eq]
    by_cases he : n = e.1
    · have hnone : rest.filter (fun e => e.1 == n || p e.1) = [] := by
        refine List.filter_eq_nil_iff.2 fun e' he' => ?_
        have hlt : n < e'.1 := he ▸ hfirst e' he'
        have hne : e'.1 ≠ n := fun h => String.lt_irrefl n (h ▸ hlt)
        have hp' : ¬ p e'.1 = true := fun h => String.lt_irrefl n (String.lt_trans hlt (hp _ h))
        simp [hne, hp']
      rw [List.filter_cons_of_pos (by simp [he]), hnone]
      simp [he]
    · rw [if_neg he]
      have hne : (e.1 == n) = false := by simpa using Ne.symm he
      cases hpe : p e.1 with
      | false =>
        rw [List.filter_cons_of_neg (by simp [hne, hpe]), List.filter_cons_of_neg (by simp [hpe]),
          ih hrest]
      | true =>
        rw [List.filter_cons_of_pos (by simp [hpe]), List.filter_cons_of_pos (by simp [hpe]),
          List.getLast?_cons, List.getLast?_cons, ih hrest]
        cases rest.lookup n <;> simp

/-- Among sorted entries, the last whose name is in a list, found by looking up the names. -/
theorem getLast?_filter_mem (sorted : entries.Pairwise fun a b => a.1 < b.1) {names : List String}
    (hnames : names.Pairwise fun a b => b < a) :
    (entries.filter fun e => names.contains e.1).getLast? =
      names.findSome? fun n => (entries.lookup n).map (n, ·) := by
  induction names with
  | nil => simp
  | cons n names ih =>
    obtain ⟨hfirst, hrest⟩ := List.pairwise_cons.1 hnames
    simp only [List.contains_cons]
    rw [getLast?_filter_or sorted names.contains n (by simpa using hfirst), ih hrest,
      List.findSome?_cons]
    cases entries.lookup n <;> simp

end Registry

namespace Library

variable {T : Type}

theorem function?_addFunction (l : Library T) (name other : String) (arity : Nat)
    (apply : List T → Except MissingArgument T) :
    (l.addFunction name arity apply).function? other =
      if other = name then some { arity, apply } else l.function? other :=
  l.functions.get?_insert name other { arity, apply }

theorem function?_addConstant (l : Library T) (name other : String) (value : T) :
    (l.addConstant name value).function? other = l.function? other := rfl

theorem function?_setUnary (l : Library T) (op : UnaryOperation) (apply : T → T) (name : String) :
    (l.setUnary op apply).function? name = l.function? name := rfl

theorem constant?_addConstant (l : Library T) (name other : String) (value : T) :
    (l.addConstant name value).constant? other =
      if other = name then some value else l.constant? other :=
  l.constants.get?_insert name other value

/-- The function registered under a name. -/
def entry? (l : Library T) (name : String) : Option (FunctionEntry T) :=
  (l.function? name).map fun function => { name, function }

/-- The function that a word stands for in a call, with a subscript or without one. -/
def callee? (l : Library T) (word : String) (subscripted : Bool) : Option (FunctionEntry T) :=
  (if subscripted then FunctionName.subscriptedNames word
    else FunctionName.plainNames word).findSome? l.entry?

end Library

/-- The function, registered under the name, may be given that many arguments, a subscript
included. -/
def LibraryFunction.Admits {T : Type} (f : LibraryFunction T) (name : String) (count : Nat) :
    Prop :=
  f.arity ≠ 0 → count = f.arity + if FunctionName.acceptsVariant name then 1 else 0

/-- The arity is compared with the arguments alone, and a subscript is one more. -/
theorem LibraryFunction.admits_of_arity {T : Type} {f : LibraryFunction T} {count : Nat}
    (name : String) (h : f.arity = 0 ∨ f.arity = count) :
    f.Admits name (count + if FunctionName.acceptsVariant name then 1 else 0) := by
  intro hzero
  rw [h.resolve_left hzero]

namespace Scope

variable {T : Type} (s : Scope T)

theorem getLast?_overloads {names : List String} {p : FunctionEntry T → Bool} {word : String}
    (hnames : names.Pairwise fun a b => b < a)
    (hp : ∀ name function, (p { name, function } && FunctionName.canonical name == word) = true ↔
      name ∈ names) :
    ((s.overloads word).filter p).getLast? = names.findSome? s.library.entry? := by
  have hfilter : ∀ e : String × LibraryFunction T,
      (p { name := e.1, function := e.2 } && FunctionName.canonical e.1 == word) =
        names.contains e.1 := fun e => by
    rw [Bool.eq_iff_iff, hp, List.contains_iff_mem]
  rw [overloads, List.filter_filter, List.filter_map, List.getLast?_map]
  simp only [Function.comp_def, hfilter]
  rw [Registry.getLast?_filter_mem s.library.functions.sorted hnames, List.map_findSome?]
  simp only [Function.comp_def, Option.map_map]
  rfl

theorem plainFunction?_eq (word : String) :
    s.plainFunction? word = (FunctionName.plainNames word).findSome? s.library.entry? :=
  s.getLast?_overloads (FunctionName.plainNames_sorted word)
    fun name _ => FunctionName.isPlain_iff name word

theorem variantFunction?_eq (word : String) :
    s.variantFunction? word = (FunctionName.subscriptedNames word).findSome? s.library.entry? :=
  s.getLast?_overloads (FunctionName.subscriptedNames_sorted word)
    fun name _ => FunctionName.isSubscripted_iff name word

theorem entry_of_findSome? {names : List String} {entry : FunctionEntry T}
    (h : names.findSome? s.library.entry? = some entry) :
    entry.name ∈ names ∧ s.library.function? entry.name = some entry.function := by
  obtain ⟨name, hname, hentry⟩ := List.exists_of_findSome?_eq_some h
  obtain ⟨function, hfunction, rfl⟩ := Option.map_eq_some_iff.1 hentry
  exact ⟨hname, hfunction⟩

theorem plainFunction?_eq_some {word : String} {entry : FunctionEntry T}
    (h : s.plainFunction? word = some entry) :
    entry.name ∈ FunctionName.plainNames word ∧
      s.library.function? entry.name = some entry.function :=
  s.entry_of_findSome? (s.plainFunction?_eq word ▸ h)

theorem variantFunction?_eq_some {word : String} {entry : FunctionEntry T}
    (h : s.variantFunction? word = some entry) :
    entry.name ∈ FunctionName.subscriptedNames word ∧
      s.library.function? entry.name = some entry.function :=
  s.entry_of_findSome? (s.variantFunction?_eq word ▸ h)

theorem variant_of_plainFunction? {word : String} {entry : FunctionEntry T}
    (h : s.plainFunction? word = some entry) : entry.variant = false := by
  simpa using (List.mem_filter.1 (List.mem_of_getLast? h)).2

theorem variant_of_variantFunction? {word : String} {entry : FunctionEntry T}
    (h : s.variantFunction? word = some entry) : entry.variant = true := by
  simpa using (List.mem_filter.1 (List.mem_of_getLast? h)).2

/-- A call that resolves means a function that agrees with it on the subscript. -/
theorem variant_of_function {s : Scope T} {word : String} {withVariant : Bool} {count : Nat}
    {entry : FunctionEntry T} (h : s.function word withVariant count = .ok entry) :
    (if withVariant then (s.variantFunction? word).or (s.plainFunction? word)
      else (s.plainFunction? word).or (s.variantFunction? word)) = some entry ∧
      entry.variant = withVariant := by
  unfold function at h
  dsimp only at h
  split at h
  · cases h
  · next found hfound =>
    rw [hfound]
    split at h
    · cases h
    split at h
    · cases h
    split at h
    · cases h
    · next hsub hplain _ =>
      cases h
      refine ⟨rfl, ?_⟩
      cases withVariant <;> simp_all

/-- That function is the one the word stands for, with a subscript or without one. -/
theorem function_eq_ok {s : Scope T} {word : String} {withVariant : Bool} {count : Nat}
    {entry : FunctionEntry T} (h : s.function word withVariant count = .ok entry) :
    (if withVariant then s.variantFunction? word else s.plainFunction? word) = some entry := by
  obtain ⟨hfound, hvariant⟩ := variant_of_function h
  cases withVariant with
  | false =>
    rcases Option.or_eq_some_iff.1 hfound with hp | ⟨-, hv⟩
    · exact hp
    · simp [s.variant_of_variantFunction? hv] at hvariant
  | true =>
    rcases Option.or_eq_some_iff.1 hfound with hv | ⟨-, hp⟩
    · exact hv
    · simp [s.variant_of_plainFunction? hp] at hvariant

theorem function?_of_function {s : Scope T} {word : String} {withVariant : Bool} {count : Nat}
    {entry : FunctionEntry T} (h : s.function word withVariant count = .ok entry) :
    s.library.function? entry.name = some entry.function := by
  have found := function_eq_ok h
  cases withVariant with
  | false => exact (s.plainFunction?_eq_some found).2
  | true => exact (s.variantFunction?_eq_some found).2

theorem plainFunction?_of_unaryFunction? {word : String} {entry : FunctionEntry T}
    (h : s.unaryFunction? word = some entry) : s.plainFunction? word = some entry :=
  (Option.filter_eq_some_iff.1 h).1

/-! ## Calls -/

theorem variant_of_callee? {word : String} {subscripted : Bool} {entry : FunctionEntry T}
    (h : s.library.callee? word subscripted = some entry) : entry.variant = subscripted := by
  cases subscripted with
  | false => exact s.variant_of_plainFunction? ((s.plainFunction?_eq word).trans h)
  | true => exact s.variant_of_variantFunction? ((s.variantFunction?_eq word).trans h)

theorem callee?_of_function {s : Scope T} {word : String} {subscripted : Bool} {count : Nat}
    {entry : FunctionEntry T} (h : s.function word subscripted count = .ok entry) :
    s.library.callee? word subscripted = some entry := by
  have found := function_eq_ok h
  cases subscripted with
  | false => exact (s.plainFunction?_eq word).symm.trans found
  | true => exact (s.variantFunction?_eq word).symm.trans found

/-- A call asks for a function of its own kind, and for one of the other kind only to say what is
wrong. -/
theorem function_eq (word : String) (subscripted : Bool) (count : Nat) :
    s.function word subscripted count =
      match s.library.callee? word subscripted,
        s.library.callee? word !subscripted with
      | some entry, _ =>
        if entry.function.arity = 0 ∨ entry.function.arity = count then .ok entry
        else .error (.argumentCountMismatch word entry.function.arity count)
      | none, some _ =>
        .error (if subscripted then .unexpectedVariant word else .missingVariant word)
      | none, none => .error (.undefinedFunction word) := by
  have hfound : (if subscripted then (s.variantFunction? word).or (s.plainFunction? word)
      else (s.plainFunction? word).or (s.variantFunction? word)) =
      (s.library.callee? word subscripted).or (s.library.callee? word !subscripted) := by
    rw [plainFunction?_eq, variantFunction?_eq]
    cases subscripted <;> rfl
  unfold function
  dsimp only
  rw [hfound]
  cases hown : s.library.callee? word subscripted with
  | some entry =>
    have hvariant := s.variant_of_callee? hown
    simp only [Option.some_or, hvariant, Bool.and_not_self, Bool.not_and_self, ← not_or,
      ite_not]
    rfl
  | none =>
    cases hother : s.library.callee? word !subscripted with
    | some entry =>
      have hvariant := s.variant_of_callee? hother
      cases subscripted <;> simp [hvariant]
    | none => rfl

/-- A call that resolves has as many arguments as its function declares. The subscript is not
counted when the function is looked up. -/
theorem admits_of_function {s : Scope T} {word : String} {subscripted : Bool} {count : Nat}
    {entry : FunctionEntry T} (h : s.function word subscripted count = .ok entry) :
    entry.function.Admits entry.name (count + if subscripted then 1 else 0) := by
  have hvariant : FunctionName.acceptsVariant entry.name = subscripted := (variant_of_function h).2
  have hcallee := callee?_of_function h
  rw [function_eq, hcallee] at h
  dsimp only at h
  split at h
  · next harity =>
    rw [← hvariant]
    exact LibraryFunction.admits_of_arity entry.name harity
  · cases h

theorem admits_of_unaryFunction? {word : String} {entry : FunctionEntry T}
    (h : s.unaryFunction? word = some entry) : entry.function.Admits entry.name 1 := by
  have hvariant : FunctionName.acceptsVariant entry.name = false :=
    s.variant_of_plainFunction? (s.plainFunction?_of_unaryFunction? h)
  have harity : entry.function.arity = 0 ∨ entry.function.arity = 1 := by
    simpa using (Option.filter_eq_some_iff.1 h).2
  simpa [hvariant] using LibraryFunction.admits_of_arity entry.name harity

end Scope

/-! ## Calls by registered name -/

namespace Library

variable {T : Type}

/-- The function registered under a word. One that is registered with the mark at the end of its
name has another word. -/
def unmarked? (l : Library T) (word : String) : Option (FunctionEntry T) :=
  if word.toList.getLast? = some FunctionName.variantMark then none else l.entry? word

/-- The function registered under a word with the mark after it. -/
def marked? (l : Library T) (word : String) : Option (FunctionEntry T) :=
  l.entry? (word.push FunctionName.variantMark)

theorem callee?_unmarked (l : Library T) {word : String} (hword : word ≠ "") :
    l.callee? word false = l.unmarked? word := by
  rw [callee?, unmarked?, if_neg Bool.false_ne_true, FunctionName.plainNames, if_neg hword]
  split <;> simp

theorem callee?_marked (l : Library T) {word : String} (hword : word ≠ "") :
    l.callee? word true = l.marked? word := by
  rw [callee?, marked?, if_pos rfl, FunctionName.subscriptedNames, if_neg hword,
    List.findSome?_singleton]

/-- The libraries have the same functions under the names that a word can stand for. -/
def SameEntries (word : String) (l l' : Library T) : Prop :=
  (word.toList.getLast? ≠ some FunctionName.variantMark → l.function? word = l'.function? word) ∧
    l.function? (word.push FunctionName.variantMark) =
      l'.function? (word.push FunctionName.variantMark)

theorem SameEntries.entries_eq {l l' : Library T} {word : String} (h : SameEntries word l l') :
    l.unmarked? word = l'.unmarked? word ∧
      l.marked? word = l'.marked? word := by
  constructor
  · unfold unmarked? entry?
    split
    · rfl
    · next hlast => rw [h.1 hlast]
  · unfold marked? entry?
    rw [h.2]

end Library

/-- A registered function as the answer to a call with a number of arguments. -/
def FunctionEntry.answer {T : Type} (e : FunctionEntry T) (word : String) (count : Nat) :
    Except CompileError (FunctionEntry T) :=
  if e.function.arity ≠ 0 ∧ e.function.arity ≠ count then
    .error (.argumentCountMismatch word e.function.arity count)
  else .ok e

/-- The answer to a call of a word, read off the two names that are registered for it. -/
def Library.answer {T : Type} (l : Library T) (word : String) (subscripted : Bool) (count : Nat) :
    Except CompileError (FunctionEntry T) :=
  match subscripted, l.unmarked? word, l.marked? word with
  | _, none, none => .error (.undefinedFunction word)
  | true, _, some entry => entry.answer word count
  | true, some _, none => .error (.unexpectedVariant word)
  | false, some entry, _ => entry.answer word count
  | false, none, some _ => .error (.missingVariant word)

namespace Scope

variable {T : Type} (s : Scope T) {word : String}

theorem plainFunction?_unmarked (hword : word ≠ "") :
    s.plainFunction? word = s.library.unmarked? word :=
  (s.plainFunction?_eq word).trans (s.library.callee?_unmarked hword)

theorem function_eq_answer (hword : word ≠ "") (subscripted : Bool) (count : Nat) :
    s.function word subscripted count = s.library.answer word subscripted count := by
  rw [function_eq]
  unfold Library.answer FunctionEntry.answer
  cases subscripted with
  | false =>
    rw [Bool.not_false, s.library.callee?_unmarked hword, s.library.callee?_marked hword]
    cases s.library.unmarked? word <;> cases s.library.marked? word <;> grind
  | true =>
    rw [Bool.not_true, s.library.callee?_unmarked hword, s.library.callee?_marked hword]
    cases s.library.unmarked? word <;> cases s.library.marked? word <;> grind

end Scope

/-- A call of a word asks for two registered names at most: the word with the mark after it, and the
word itself if it does not end in the mark. The parameters and all other functions of the library
have no say. -/
theorem function_by_registered_name {T : Type} (s : Scope T) {word : String} (hword : word ≠ "") :
    s.plainFunction? word = s.library.unmarked? word ∧
    (∀ subscripted count,
      s.function word subscripted count = s.library.answer word subscripted count) ∧
    ∀ s' : Scope T, s.library.SameEntries word s'.library →
      s'.plainFunction? word = s.plainFunction? word ∧
        ∀ subscripted count,
          s'.function word subscripted count = s.function word subscripted count := by
  refine ⟨s.plainFunction?_unmarked hword, s.function_eq_answer hword, fun s' same => ?_⟩
  obtain ⟨hunmarked, hmarked⟩ := same.entries_eq
  constructor
  · rw [s.plainFunction?_unmarked hword, s'.plainFunction?_unmarked hword, hunmarked]
  · intro subscripted count
    rw [s.function_eq_answer hword, s'.function_eq_answer hword]
    unfold Library.answer
    rw [hunmarked, hmarked]

/-- With `a`, `a_`, `a__` and `_` registered, the word `a_` names the function registered as `a__`,
whatever is registered as `a_`, and does so with a subscript only. -/
theorem function_by_registered_name_marks :
    let l : Library Nat := (((Library.empty.addFunction "a" 1 fun _ => .ok 1).addFunction "a_" 2
      fun _ => .ok 2).addFunction "a__" 3 fun _ => .ok 3).addFunction "_" 0 fun _ => .ok 4
    let s : Scope Nat := { params := ["a"], library := l }
    let s' : Scope Nat := { params := [], library := l.addFunction "a_" 0 fun _ => .ok 5 }
    "a_" ≠ "" ∧ s.plainFunction? "a_" = none ∧
      s.function "a_" false 2 = .error (.missingVariant "a_") ∧
      s.function "a_" true 2 = .error (.argumentCountMismatch "a_" 3 2) ∧
      s.function "a_" true 3 =
        .ok { name := "a__", function := { arity := 3, apply := fun _ => .ok 3 } } ∧
      s'.function "a_" true 3 = s.function "a_" true 3 := by
  intro l s s'
  have hword : "a_" ≠ "" := by decide
  obtain ⟨hplain, hcall, hother⟩ := function_by_registered_name s hword
  have same : l.SameEntries "a_" s'.library := ⟨fun h => absurd rfl h, rfl⟩
  exact ⟨hword, hplain.trans rfl, (hcall false 2).trans rfl, (hcall true 2).trans rfl,
    (hcall true 3).trans rfl, (hother s' same).2 true 3⟩

end Formula
