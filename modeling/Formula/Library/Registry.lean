/-!
# Registries

A registry holds one value for each of its names and lists the names in increasing order of their
characters. Registering a name again replaces its value.

## Main statements

* `Registry.get?_insert` — a registration changes the look-up of its own name only.
* `Registry.mem_names_iff` — the names listed are the names that can be looked up.
-/

namespace Formula

structure Registry (α : Type) where
  entries : List (String × α)
  sorted : entries.Pairwise fun a b => a.1 < b.1

namespace Registry

variable {α : Type}

def empty : Registry α :=
  { entries := [], sorted := .nil }

/-- Puts an entry in its place, over an entry of the same name. -/
def insertEntry (name : String) (value : α) : List (String × α) → List (String × α)
  | [] => [(name, value)]
  | entry :: rest =>
    if name < entry.1 then (name, value) :: entry :: rest
    else if name = entry.1 then (name, value) :: rest
    else entry :: insertEntry name value rest

theorem mem_insertEntry {name : String} {value : α} {entry : String × α}
    {entries : List (String × α)} (h : entry ∈ insertEntry name value entries) :
    entry = (name, value) ∨ entry ∈ entries := by
  induction entries with
  | nil => simpa [insertEntry] using h
  | cons first rest ih =>
    unfold insertEntry at h
    split at h
    · simpa using h
    split at h
    · simp only [List.mem_cons] at h ⊢
      exact h.imp_right .inr
    · simp only [List.mem_cons] at h ⊢
      rcases h with h | h
      · exact .inr (.inl h)
      · exact (ih h).imp_right .inr

theorem lt_of_not_lt_of_ne {a b : String} (h : ¬ a < b) (hne : a ≠ b) : b < a := by
  refine Decidable.byContradiction fun hba => hne (String.le_antisymm ?_ ?_)
  · exact String.not_lt.1 hba
  · exact String.not_lt.1 h

theorem sorted_insertEntry (name : String) (value : α) {entries : List (String × α)}
    (h : entries.Pairwise fun a b => a.1 < b.1) :
    (insertEntry name value entries).Pairwise fun a b => a.1 < b.1 := by
  induction entries with
  | nil => simp [insertEntry]
  | cons first rest ih =>
    obtain ⟨hfirst, hrest⟩ := List.pairwise_cons.1 h
    unfold insertEntry
    split
    · next hlt =>
      refine .cons (fun entry hentry => ?_) h
      rcases List.mem_cons.1 hentry with rfl | hentry
      · exact hlt
      · exact String.lt_trans hlt (hfirst entry hentry)
    split
    · next heq =>
      exact .cons (fun entry hentry => by simpa [heq] using hfirst entry hentry) hrest
    · next hlt hne =>
      refine .cons (fun entry hentry => ?_) (ih hrest)
      rcases mem_insertEntry hentry with rfl | hentry
      · exact lt_of_not_lt_of_ne hlt hne
      · exact hfirst entry hentry

def insert (r : Registry α) (name : String) (value : α) : Registry α :=
  { entries := insertEntry name value r.entries
    sorted := sorted_insertEntry name value r.sorted }

def get? (r : Registry α) (name : String) : Option α :=
  r.entries.lookup name

def contains (r : Registry α) (name : String) : Bool :=
  (r.get? name).isSome

/-- The names, in increasing order. -/
def names (r : Registry α) : List String :=
  r.entries.map Prod.fst

@[simp] theorem get?_empty (name : String) : (empty : Registry α).get? name = none := rfl

theorem lookup_cons_eq (name : String) (entry : String × α) (rest : List (String × α)) :
    (entry :: rest).lookup name = if name = entry.1 then some entry.2 else rest.lookup name := by
  rw [List.lookup_cons]
  split <;> simp_all

theorem lookup_insertEntry (name other : String) (value : α) (entries : List (String × α)) :
    (insertEntry name value entries).lookup other =
      if other = name then some value else entries.lookup other := by
  induction entries with
  | nil => simp [insertEntry, lookup_cons_eq]
  | cons first rest ih =>
    unfold insertEntry
    split
    · simp [lookup_cons_eq]
    split
    · next heq => simp only [lookup_cons_eq, heq]; split <;> rfl
    · next hne =>
      simp only [lookup_cons_eq, ih]
      grind

theorem get?_insert (r : Registry α) (name other : String) (value : α) :
    (r.insert name value).get? other = if other = name then some value else r.get? other :=
  lookup_insertEntry name other value r.entries

theorem mem_names_iff (r : Registry α) (name : String) :
    name ∈ r.names ↔ (r.get? name).isSome := by
  unfold names get?
  induction r.entries with
  | nil => simp
  | cons first rest ih => by_cases h : name = first.1 <;> simp_all [lookup_cons_eq]

end Registry

end Formula
