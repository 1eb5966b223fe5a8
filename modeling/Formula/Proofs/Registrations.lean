import Formula.Compile
import Formula.Number.Float
import Formula.Proofs.Lookup

/-!
# Libraries and their registrations

A library is built by registrations of functions, of constants and of replaced operators. Of all
registrations for one name or one operator only the last counts, and the order of registrations for
different ones does not matter: the library is the map from what can be registered to the last
registration for it. Its names are listed once each, in the order of their bytes.

## Main definitions

* `Registration` — one step in building a library.
* `Registration.last?` — the last registration for a key.
* `Library.registered?` — a library as a map from keys to registrations.

## Main statements

* `utf8Bytes_lt` — names in increasing order are in increasing order of their bytes.
* `Library.ext_registered?` — a library is determined by that map.
* `Library.registered?_registerAll` — the map after any sequence of registrations.
* `library_from_last_registrations` — sequences with the same last registrations build one library.
-/

namespace Formula

/-! ## The order of bytes -/

/-- The bytes of a text in UTF-8. -/
def utf8Bytes (text : String) : List UInt8 :=
  text.toByteArray.data.toList

theorem utf8Bytes_eq_flatMap (text : String) :
    utf8Bytes text = text.toList.flatMap String.utf8EncodeChar := by
  calc utf8Bytes text
    _ = utf8Bytes (String.ofList text.toList) := by rw [String.ofList_toList]
    _ = text.toList.flatMap String.utf8EncodeChar := by
      rw [utf8Bytes, String.toByteArray_ofList, List.utf8Encode, List.toList_data_toByteArray]

/-- A smaller character has smaller bytes, and they differ before either of them ends. -/
theorem utf8EncodeChar_append_lt {c d : Char} (h : c < d) (xs ys : List UInt8) :
    String.utf8EncodeChar c ++ xs < String.utf8EncodeChar d ++ ys := by
  have hlt : c.val.toNat < d.val.toNat := h
  have hd : d.val.toNat < 0x110000 := by
    have := d.valid
    grind
  -- the bytes after the first are the digits to base 64
  have hsecond (n : Nat) : n / 4096 = n / 64 / 64 := by omega
  have hthird (n : Nat) : n / 262144 = n / 64 / 64 / 64 := by omega
  unfold String.utf8EncodeChar
  dsimp only
  generalize c.val.toNat = v at hlt
  generalize d.val.toNat = w at hlt hd
  simp only [hsecond, hthird]
  repeat' split
  all_goals
    simp only [List.cons_append, List.nil_append, List.cons_lt_cons_iff, UInt8.lt_iff_toNat_lt,
      ← UInt8.toNat_inj, UInt8.toNat_ofNat']
    omega

theorem flatMap_utf8EncodeChar_lt {cs ds : List Char} (h : cs < ds) :
    cs.flatMap String.utf8EncodeChar < ds.flatMap String.utf8EncodeChar := by
  induction h with
  | @nil d ds =>
    obtain ⟨b, bs, hbytes⟩ := List.exists_cons_of_ne_nil (@String.utf8EncodeChar_ne_nil d)
    rw [List.flatMap_nil, List.flatMap_cons, hbytes]
    exact List.nil_lt_cons b _
  | @cons c cs ds _ ih => exact List.append_left_lt ih
  | @rel c cs d ds hlt => exact utf8EncodeChar_append_lt hlt _ _

theorem utf8Bytes_lt {a b : String} (h : a < b) : utf8Bytes a < utf8Bytes b := by
  rw [utf8Bytes_eq_flatMap, utf8Bytes_eq_flatMap]
  exact flatMap_utf8EncodeChar_lt h

/-! ## Registries -/

namespace Registry

variable {α : Type}

theorem lookup_eq_none_of_lt {entries : List (String × α)} {name : String}
    (h : ∀ entry ∈ entries, name < entry.1) : entries.lookup name = none := by
  induction entries with
  | nil => rfl
  | cons first rest ih =>
    obtain ⟨hfirst, hrest⟩ := List.forall_mem_cons.1 h
    have hne : name ≠ first.1 := fun heq => String.lt_irrefl name (heq ▸ hfirst)
    rw [lookup_cons_eq, if_neg hne, ih hrest]

/-- The smallest name that can be looked up is the first. -/
theorem le_of_lookup {first : String × α} {rest : List (String × α)}
    (hfirst : ∀ entry ∈ rest, first.1 < entry.1) {name : String} {value : α}
    (h : (first :: rest).lookup name = some value) : ¬ name < first.1 := by
  intro hlt
  rw [lookup_eq_none_of_lt] at h
  · cases h
  · refine List.forall_mem_cons.2 ⟨hlt, fun entry hentry => ?_⟩
    exact String.lt_trans hlt (hfirst entry hentry)

/-- Sorted entries are determined by their look-ups. -/
theorem eq_of_lookup_eq {entries entries' : List (String × α)}
    (sorted : entries.Pairwise fun a b => a.1 < b.1)
    (sorted' : entries'.Pairwise fun a b => a.1 < b.1)
    (h : ∀ name, entries.lookup name = entries'.lookup name) : entries = entries' := by
  induction entries generalizing entries' with
  | nil =>
    cases entries' with
    | nil => rfl
    | cons first' rest' => simpa [lookup_cons_eq] using h first'.1
  | cons first rest ih =>
    cases entries' with
    | nil => simpa [lookup_cons_eq] using h first.1
    | cons first' rest' =>
      obtain ⟨hfirst, hrest⟩ := List.pairwise_cons.1 sorted
      obtain ⟨hfirst', hrest'⟩ := List.pairwise_cons.1 sorted'
      have found : (first :: rest).lookup first.1 = some first.2 := by simp [lookup_cons_eq]
      have found' : (first' :: rest').lookup first'.1 = some first'.2 := by simp [lookup_cons_eq]
      have hname : first.1 = first'.1 := String.le_antisymm
        (String.not_lt.1 (le_of_lookup hfirst ((h _).trans found')))
        (String.not_lt.1 (le_of_lookup hfirst' ((h _).symm.trans found)))
      have hvalue : first.2 = first'.2 := by
        rw [h, hname, found'] at found
        exact (Option.some.inj found).symm
      obtain rfl : first = first' := Prod.ext hname hvalue
      refine congrArg _ (ih hrest hrest' fun name => ?_)
      by_cases hne : name = first.1
      · -- neither rest has the name of the first entry once more
        rw [hne, lookup_eq_none_of_lt hfirst, lookup_eq_none_of_lt hfirst']
      · have hlookup := h name
        rwa [lookup_cons_eq, lookup_cons_eq, if_neg hne, if_neg hne] at hlookup

theorem ext_get? {r r' : Registry α} (h : ∀ name, r.get? name = r'.get? name) : r = r' := by
  obtain ⟨entries, sorted⟩ := r
  obtain ⟨entries', sorted'⟩ := r'
  obtain rfl : entries = entries' := eq_of_lookup_eq sorted sorted' h
  rfl

theorem names_utf8Bytes_lt (r : Registry α) :
    r.names.Pairwise fun a b => utf8Bytes a < utf8Bytes b :=
  List.pairwise_map.2 (r.sorted.imp utf8Bytes_lt)

end Registry

/-! ## Registrations -/

/-- One step in building a library. -/
inductive Registration (T : Type) where
  | function (name : String) (arity : Nat) (apply : List T → Except MissingArgument T)
  | constant (name : String) (value : T)
  | binary (op : BinaryOp) (apply : T → T → T)
  | unary (op : UnaryOperation) (apply : T → T)

/-- What a registration is for. Functions and constants of the same name are not in each other's
way. -/
inductive RegistrationKey where
  | function (name : String)
  | constant (name : String)
  | binary (op : BinaryOp)
  | unary (op : UnaryOperation)
deriving DecidableEq, Repr

variable {T : Type}

namespace Registration

def key : Registration T → RegistrationKey
  | function name _ _ => .function name
  | constant name _ => .constant name
  | binary op _ => .binary op
  | unary op _ => .unary op

/-- The last registration for a key. -/
def last? (key : RegistrationKey) (rs : List (Registration T)) : Option (Registration T) :=
  rs.reverse.find? fun r => r.key = key

theorem last?_nil (key : RegistrationKey) : last? key ([] : List (Registration T)) = none := rfl

theorem last?_cons (key : RegistrationKey) (r : Registration T) (rs : List (Registration T)) :
    last? key (r :: rs) = (last? key rs).or (if r.key = key then some r else none) := by
  rw [last?, List.reverse_cons, List.find?_append]
  congr 1
  by_cases h : r.key = key <;> simp [h]

theorem isSome_last?_iff {key : RegistrationKey} {rs : List (Registration T)} :
    (last? key rs).isSome ↔ key ∈ rs.map Registration.key := by
  simp [last?]

end Registration

namespace Library

def register (l : Library T) : Registration T → Library T
  | .function name arity apply => l.addFunction name arity apply
  | .constant name value => l.addConstant name value
  | .binary op apply => l.setBinary op apply
  | .unary op apply => l.setUnary op apply

/-- The library after a sequence of registrations. -/
def registerAll (l : Library T) (rs : List (Registration T)) : Library T :=
  rs.foldl register l

/-- What the library has for a key, as the registration that puts it there. -/
def registered? (l : Library T) : RegistrationKey → Option (Registration T)
  | .function name => (l.function? name).map fun f => .function name f.arity f.apply
  | .constant name => (l.constant? name).map (.constant name)
  | .binary op => (l.binary op).map (.binary op)
  | .unary op => (l.unary op).map (.unary op)

/-- A registration changes what the library has for its own key only. -/
theorem registered?_register (l : Library T) (r : Registration T) (key : RegistrationKey) :
    (l.register r).registered? key = if r.key = key then some r else l.registered? key := by
  cases r with
  | function name arity apply =>
    cases key with
    | function other =>
      simp only [register, registered?, function?_addFunction, Registration.key]
      grind
    | constant | binary | unary => rfl
  | constant name value =>
    cases key with
    | constant other =>
      simp only [register, registered?, constant?_addConstant, Registration.key]
      grind
    | function | binary | unary => rfl
  | binary op apply =>
    cases key with
    | binary other =>
      simp only [register, registered?, setBinary, Registration.key]
      grind
    | function | constant | unary => rfl
  | unary op apply =>
    cases key with
    | unary other =>
      simp only [register, registered?, setUnary, Registration.key]
      grind
    | function | constant | binary => rfl

/-- After a sequence of registrations the library has the last for each key, and what it had before
if there is none. -/
theorem registered?_registerAll (l : Library T) (rs : List (Registration T))
    (key : RegistrationKey) :
    (l.registerAll rs).registered? key = (Registration.last? key rs).or (l.registered? key) := by
  induction rs generalizing l with
  | nil => rfl
  | cons r rs ih =>
    have hstep : (l.registerAll (r :: rs)) = (l.register r).registerAll rs := rfl
    rw [hstep, ih, registered?_register, Registration.last?_cons, Option.or_assoc]
    congr 1
    split <;> rfl

theorem function?_eq_of_registered? {l l' : Library T} {name : String}
    (h : l.registered? (.function name) = l'.registered? (.function name)) :
    l.function? name = l'.function? name := by
  refine Option.map_injective ?_ h
  rintro ⟨arity, apply⟩ ⟨arity', apply'⟩ heq
  cases heq
  rfl

/-- A library is determined by what it has for each key. -/
theorem ext_registered? {l l' : Library T} (h : ∀ key, l.registered? key = l'.registered? key) :
    l = l' := by
  have hfunctions : l.functions = l'.functions :=
    Registry.ext_get? fun name => function?_eq_of_registered? (h (.function name))
  have hconstants : l.constants = l'.constants := Registry.ext_get? fun name =>
    Option.map_injective (fun _ _ heq => by cases heq; rfl) (h (.constant name))
  have hbinary : l.binary = l'.binary := funext fun op =>
    Option.map_injective (fun _ _ heq => by cases heq; rfl) (h (.binary op))
  have hunary : l.unary = l'.unary := funext fun op =>
    Option.map_injective (fun _ _ heq => by cases heq; rfl) (h (.unary op))
  cases l
  cases l'
  cases hfunctions
  cases hconstants
  cases hbinary
  cases hunary
  rfl

theorem mem_functionNames_iff (l : Library T) (name : String) :
    name ∈ l.functionNames ↔ (l.registered? (.function name)).isSome := by
  rw [registered?, Option.isSome_map]
  exact l.functions.mem_names_iff name

theorem mem_constantNames_iff (l : Library T) (name : String) :
    name ∈ l.constantNames ↔ (l.registered? (.constant name)).isSome := by
  rw [registered?, Option.isSome_map]
  exact l.constants.mem_names_iff name

theorem isSome_registered?_registerAll (l : Library T) (rs : List (Registration T))
    (key : RegistrationKey) : ((l.registerAll rs).registered? key).isSome ↔
      (l.registered? key).isSome ∨ key ∈ rs.map Registration.key := by
  rw [registered?_registerAll, Option.isSome_or, Bool.or_eq_true, Registration.isSome_last?_iff]
  exact or_comm

end Library

/-- Two sequences of registrations with the same last one for each name and operator build the same
library out of any other, so that everything looked up, scanned or compiled with them is the same.
What it has for a name or an operator is the last registration for it. Its names are those that it
had before and those that were registered, each once and in the order of their bytes. -/
theorem library_from_last_registrations [Number T] (l : Library T) {rs rs' : List (Registration T)}
    (h : ∀ key, Registration.last? key rs = Registration.last? key rs') :
    let built := l.registerAll rs
    let built' := l.registerAll rs'
    built = built' ∧
    (∀ key, built.registered? key = (Registration.last? key rs).or (l.registered? key)) ∧
    (∀ name, name ∈ built.functionNames ↔
      name ∈ l.functionNames ∨ .function name ∈ rs.map Registration.key) ∧
    (∀ name, name ∈ built.constantNames ↔
      name ∈ l.constantNames ∨ .constant name ∈ rs.map Registration.key) ∧
    built.functionNames.Pairwise (fun a b => utf8Bytes a < utf8Bytes b) ∧
    built.constantNames.Pairwise (fun a b => utf8Bytes a < utf8Bytes b) ∧
    ∀ source, Token.scan built.vocabulary source = Token.scan built'.vocabulary source ∧
      built.compile source = built'.compile source := by
  intro built built'
  have same : built = built' := by
    refine Library.ext_registered? fun key => ?_
    rw [l.registered?_registerAll, l.registered?_registerAll, h key]
  refine ⟨same, l.registered?_registerAll rs, fun name => ?_, fun name => ?_,
    built.functions.names_utf8Bytes_lt, built.constants.names_utf8Bytes_lt, fun source => ?_⟩
  · rw [Library.mem_functionNames_iff, Library.mem_functionNames_iff]
    exact l.isSome_registered?_registerAll rs (.function name)
  · rw [Library.mem_constantNames_iff, Library.mem_constantNames_iff]
    exact l.isSome_registered?_registerAll rs (.constant name)
  · rw [same]
    exact ⟨rfl, rfl⟩

/-- A function `g` registered twice, with other registrations in between, is the one registered
last, and the constant `g` has nothing to do with it. -/
theorem library_from_last_registrations_twice :
    let first : Registration Float := .function "g" 1 fun args => .ok (args.headD 0)
    let last : Registration Float := .function "g" 0 fun args => .ok (args.headD 1)
    let other : Registration Float := .function "é" 1 fun args => .ok (args.headD 2)
    let constant : Registration Float := .constant "g" 2
    let add : Registration Float := .binary .add fun a _ => a
    let neg : Registration Float := .unary .neg fun a => a
    let built := Library.empty.registerAll [first, constant, add, other, neg, last]
    let built' := Library.empty.registerAll [neg, last, other, constant, add]
    (∀ key, Registration.last? key [first, constant, add, other, neg, last] =
      Registration.last? key [neg, last, other, constant, add]) ∧
    built = built' ∧ built.registered? (.function "g") = some last ∧
    built.functionNames = ["g", "é"] ∧
    built.functionNames.Pairwise (fun a b => utf8Bytes a < utf8Bytes b) ∧
    built.compile "f(x)=-g(x,x)+x" = built'.compile "f(x)=-g(x,x)+x" := by
  intro first last other constant add neg built built'
  have hlast : ∀ key, Registration.last? key [first, constant, add, other, neg, last] =
      Registration.last? key [neg, last, other, constant, add] := by
    intro key
    simp only [Registration.last?_cons, Registration.last?_nil, Registration.key, first, last,
      other, constant, add, neg]
    cases key with
    | function name => grind
    | constant | binary | unary => simp
  obtain ⟨same, registered, -, -, sorted, -, compiled⟩ :=
    library_from_last_registrations Library.empty hlast
  exact ⟨hlast, same, registered (.function "g"), rfl, sorted, (compiled _).2⟩

end Formula
