/-
  States: the values of the variables between two sweeps, in a fixed order of their names.

  * `State.set`: a name gets a value; a name that is new goes to the end, any other one
    keeps its place;
  * `get?_set_self`, `get?_set_of_ne`: what is read after a name was set;
  * `keys_set`: the names after a name was set;
  * `State.ofList`: entries set one after the other.
-/
import Gibbs.Value.Basic

namespace Gibbs

/-! ## Entries -/

/-- Entries with a name set: in place if the name is there, at the end otherwise. -/
def setEntry {α : Type} (name : String) (v : α) : List (String × α) → List (String × α)
  | [] => [(name, v)]
  | (n, w) :: rest => if n = name then (name, v) :: rest else (n, w) :: setEntry name v rest

theorem map_fst_setEntry {α : Type} (name : String) (v : α) (l : List (String × α)) :
    (setEntry name v l).map Prod.fst
      = if name ∈ l.map Prod.fst then l.map Prod.fst else l.map Prod.fst ++ [name] := by
  induction l with
  | nil => rfl
  | cons e l ih =>
    obtain ⟨n, w⟩ := e
    by_cases h : n = name
    · simp [setEntry, h]
    · have h' : ¬ name = n := fun e => h e.symm
      simp only [setEntry, h, if_false, List.map_cons, ih, List.mem_cons, h', false_or]
      split <;> simp

theorem nodup_setEntry {α : Type} {name : String} {v : α} {l : List (String × α)}
    (h : (l.map Prod.fst).Nodup) : ((setEntry name v l).map Prod.fst).Nodup := by
  rw [map_fst_setEntry]
  split
  · exact h
  · next hn =>
    rw [List.nodup_append]
    refine ⟨h, by simp, ?_⟩
    intro a ha b hb
    rw [List.mem_singleton.1 hb]
    rintro rfl
    exact hn ha

theorem lookup_setEntry_self {α : Type} (name : String) (v : α) (l : List (String × α)) :
    (setEntry name v l).lookup name = some v := by
  induction l with
  | nil => simp [setEntry]
  | cons e l ih =>
    obtain ⟨n, w⟩ := e
    by_cases h : n = name
    · simp [setEntry, h]
    · have h' : (name == n) = false := by simpa using fun e => h e.symm
      simp [setEntry, h, List.lookup_cons, h', ih]

theorem lookup_setEntry_of_ne {α : Type} {name other : String} (h : other ≠ name) (v : α)
    (l : List (String × α)) : (setEntry name v l).lookup other = l.lookup other := by
  induction l with
  | nil =>
    have h' : (other == name) = false := by simpa using h
    simp [setEntry, List.lookup_cons, h']
  | cons e l ih =>
    obtain ⟨n, w⟩ := e
    have h' : (other == name) = false := by simpa using h
    by_cases hn : n = name
    · simp [setEntry, hn, List.lookup_cons, h']
    · simp [setEntry, hn, List.lookup_cons, ih]

/-! ## States -/

/-- The values of the variables; no name occurs twice. -/
structure State where
  entries : List (String × Value)
  nodup_keys : (entries.map Prod.fst).Nodup

namespace State

/-- The state without variables. -/
def empty : State := ⟨[], by simp⟩

instance : Inhabited State := ⟨empty⟩

/-- The names, in order. -/
def keys (s : State) : List String := s.entries.map Prod.fst

/-- The value of a name, if it has one. -/
def get? (s : State) (name : String) : Option Value := s.entries.lookup name

/-- The state in which a name has a value. -/
def set (s : State) (name : String) (v : Value) : State :=
  ⟨setEntry name v s.entries, nodup_setEntry s.nodup_keys⟩

/-- Entries set one after the other. -/
def ofList (entries : List (String × Value)) : State :=
  entries.foldl (fun s e => s.set e.1 e.2) empty

/-- Whether a name has a value. -/
def has (s : State) (name : String) : Bool := s.keys.contains name

theorem has_iff {s : State} {name : String} : s.has name = true ↔ name ∈ s.keys :=
  List.contains_iff_mem

/-- A name that a state has has a value. -/
theorem isSome_get?_of_has {s : State} {name : String} (h : s.has name = true) :
    (s.get? name).isSome = true := by
  obtain ⟨e, he, rfl⟩ := List.mem_map.1 (has_iff.1 h)
  rw [get?, List.lookup_isSome_iff]
  exact ⟨e, he, by simp⟩

theorem mem_of_get? {s : State} {name : String} {v : Value} (h : s.get? name = some v) :
    (name, v) ∈ s.entries := by
  obtain ⟨front, back, hentries, -⟩ := List.lookup_eq_some_iff.1 h
  rw [hentries]; simp

/-- A state has every name that has a value. -/
theorem has_of_get? {s : State} {name : String} {v : Value} (h : s.get? name = some v) :
    s.has name = true :=
  has_iff.2 (List.mem_map_of_mem (mem_of_get? h))

theorem ext_entries {s t : State} (h : s.entries = t.entries) : s = t := by
  cases s; cases t; cases h; rfl

/-- **The names after a name was set.** -/
theorem keys_set (s : State) (name : String) (v : Value) :
    (s.set name v).keys = if name ∈ s.keys then s.keys else s.keys ++ [name] :=
  map_fst_setEntry name v s.entries

@[simp] theorem get?_set_self (s : State) (name : String) (v : Value) :
    (s.set name v).get? name = some v := lookup_setEntry_self name v s.entries

theorem get?_set_of_ne {name other : String} (h : other ≠ name) (s : State) (v : Value) :
    (s.set name v).get? other = s.get? other := lookup_setEntry_of_ne h v s.entries

end State

end Gibbs
