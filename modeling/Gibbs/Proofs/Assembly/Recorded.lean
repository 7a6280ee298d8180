/-
  What is recorded: the values of a variable over all draws of all chains.

  Recordable values are truth values, doubles and words, one at a time or in arrays.  They are
  described by their extents and by the number at every position, whether they are plain or
  come in an array; as an array, each of them keeps both.

  * `Value.dims`, `component`, `kind`: the extents, the numbers and their kind;
  * `Value.asArray_spec`: the array of a recordable value has the same extents and numbers;
  * `recorded`: all values of a variable, in the order of the draws;
  * `valuesOf_eq`, `valuesOf_error`: the arrays of a variable are found if and only if no
    state lacks it.
-/
import Gibbs.Proofs.Except
import Gibbs.Proofs.Tensor.Stack
import Gibbs.Assembly.Record

namespace Gibbs

/-! ## Classes of errors -/

/-- Whether the draws of a record do not fit together. -/
def Error.isShapeMismatch : Error → Bool
  | .unequalLengths _ | .variableMissing _ | .stackedShapes _ _ _ | .rowShape _ _ _ => true
  | _ => false

/-- Whether the draws of a record differ in the kind of their numbers. -/
def Error.isTypeMismatch : Error → Bool
  | .rowKind _ _ _ => true
  | _ => false

theorem Error.not_isShapeMismatch : ∀ {e : Error}, e.isTypeMismatch = true →
    e.isShapeMismatch = false
  | .rowKind _ _ _, _ => rfl

/-! ## Recordable values -/

namespace Value

/-- Truth values, doubles and words, and arrays of them. -/
def isRecordable : Value → Bool
  | .plain (.bool _) | .plain (.float _) => true
  | .plain (.int i) => IntFormat.word.holds i
  | .cell c => c.kind.isBasic
  | .array t => t.kind.isBasic
  | _ => false

/-- The extents of a value; a single number has none. -/
def dims : Value → Shape
  | .array t => t.shape
  | _ => []

/-- The number at a position. -/
def component : Value → List Nat → Cell
  | .plain (.bool b), _ => ⟨.bool, b⟩
  | .plain (.int i), _ => ⟨.int .word, i⟩
  | .plain (.float x), _ => ⟨.float .double, x⟩
  | .cell c, _ => c
  | .array t, idx => t.cell idx
  | _, _ => ⟨.object, .nothing⟩

/-- The kind of the numbers. -/
def kind (v : Value) : Kind := (v.component []).kind

theorem isBasic_kind {v : Value} (h : v.isRecordable = true) : v.kind.isBasic = true := by
  unfold isRecordable at h
  split at h
  · rfl
  · rfl
  · rfl
  · exact h
  · exact h
  · cases h

/-- The array of a value, for values that have one. -/
def asArray (v : Value) : Tensor := v.toTensor.toOption.getD (.ofPlain .nothing)

theorem toTensor_asArray {v : Value} {t : Tensor} (h : v.toTensor = .ok t) :
    v.toTensor = .ok v.asArray := by
  rw [asArray, h]; rfl

/-- A word as an array. -/
theorem ofPlain_int {i : Int} (h : IntFormat.word.holds i = true) :
    Tensor.ofPlain (.int i) = .ofCell ⟨.int .word, i⟩ := by
  have hkind : Kind.ofInt i = .int .word := if_pos h
  have hwrap : IntFormat.word.wrap i = i := eq_of_beq h
  change (⟨Kind.ofInt i, Grid.scalar ((Kind.ofInt i).ofPlain (.int i))⟩ : Tensor) = _
  rw [hkind]
  change (⟨.int .word, Grid.scalar (IntFormat.word.wrap i)⟩ : Tensor) = _
  rw [hwrap]; rfl

/-- An array with the extents and the numbers of a value. -/
structure HasArray (v : Value) (t : Tensor) : Prop where
  toTensor : v.toTensor = .ok t
  shape : t.shape = v.dims
  kind : t.kind = v.kind
  cell : ∀ idx, v.dims.admits idx = true → t.cell idx = v.component idx

/-- **The array of a recordable value:** the same extents, the same numbers. -/
theorem asArray_spec {v : Value} (h : v.isRecordable = true) : v.HasArray v.asArray := by
  have single : ∀ c : Cell, ∀ idx, Shape.admits [] idx = true → (Tensor.ofCell c).cell idx = c := by
    intro c idx hidx
    exact congrArg (Cell.mk c.kind) (Grid.get_ofFn hidx)
  match v, h with
  | .plain (.bool b), _ => exact ⟨rfl, rfl, rfl, single ⟨.bool, b⟩⟩
  | .plain (.float x), _ => exact ⟨rfl, rfl, rfl, single ⟨.float .double, x⟩⟩
  | .plain (.int i), h =>
    have harray : asArray (.plain (.int i)) = .ofCell ⟨.int .word, i⟩ := ofPlain_int h
    rw [harray]
    exact ⟨congrArg Except.ok (ofPlain_int h), rfl, rfl, single ⟨.int .word, i⟩⟩
  | .cell c, _ => exact ⟨rfl, rfl, rfl, single c⟩
  | .array t, _ => exact ⟨rfl, rfl, rfl, fun _ _ => rfl⟩

end Value

namespace Assembly

/-! ## Recorded states -/

/-- Whether all values of all draws are recordable. -/
def isRecordable (chains : List Draws) : Bool :=
  chains.all fun draws => draws.all fun s => s.entries.all fun e => e.2.isRecordable

/-- The state of a chain at a draw. -/
def stateAt? (chains : List Draws) (c d : Nat) : Option State :=
  chains[c]?.bind fun draws => draws[d]?

/-- The names of the first recorded state: that of the first chain with draws. -/
def leadingNames (chains : List Draws) : List String :=
  ((chains.findSome? List.head?).map State.keys).getD []

/-- All values of a variable, chain by chain and draw by draw. -/
def recorded (chains : List Draws) (name : String) : List Value :=
  chains.flatten.filterMap fun s => s.get? name

/-- No recorded state lacks a variable. -/
def Everywhere (chains : List Draws) (name : String) : Prop :=
  ∀ s ∈ chains.flatten, name ∈ s.keys

theorem variableNames_eq (chains : List Draws) : variableNames chains = leadingNames chains := by
  unfold variableNames leadingNames
  rw [← List.head?_flatten]
  cases chains.flatten <;> rfl

variable {chains : List Draws} {name : String} {s : State} {v : Value}

theorem mem_leadingNames (h : name ∈ leadingNames chains) :
    ∃ s ∈ chains.flatten, name ∈ s.keys := by
  rw [← variableNames_eq] at h
  unfold variableNames at h
  split at h
  · cases h
  · next s rest hs => exact ⟨s, by rw [hs]; exact List.mem_cons_self, h⟩

theorem nodup_leadingNames (chains : List Draws) : (leadingNames chains).Nodup := by
  rw [← variableNames_eq]
  unfold variableNames
  split
  · exact List.nodup_nil
  · next s _ _ => exact s.nodup_keys

theorem mem_recorded_iff : v ∈ recorded chains name ↔ ∃ s ∈ chains.flatten, s.get? name = some v :=
  List.mem_filterMap

theorem isRecordable_of_get? (h : isRecordable chains = true) (hs : s ∈ chains.flatten)
    (hv : s.get? name = some v) : v.isRecordable = true := by
  obtain ⟨draws, hdraws, hs⟩ := List.mem_flatten.1 hs
  simp only [isRecordable, List.all_eq_true] at h
  exact h draws hdraws s hs (name, v) (State.mem_of_get? hv)

theorem isRecordable_of_mem (h : isRecordable chains = true) (hv : v ∈ recorded chains name) :
    v.isRecordable = true := by
  obtain ⟨s, hs, hv⟩ := mem_recorded_iff.1 hv
  exact isRecordable_of_get? h hs hv

theorem exists_get? (h : name ∈ s.keys) : ∃ v, s.get? name = some v :=
  Option.isSome_iff_exists.1 (State.isSome_get?_of_has (State.has_iff.2 h))

theorem get?_eq_none (h : name ∉ s.keys) : s.get? name = none := by
  cases hv : s.get? name with
  | none => rfl
  | some v => exact absurd (State.has_iff.1 (State.has_of_get? hv)) h

/-! ## The arrays of a variable -/

/-- The array of a variable in a state, for states that have one. -/
def arrayAt (name : String) (s : State) : Tensor :=
  (s.get? name).elim (.ofPlain .nothing) Value.asArray

theorem arrayAt_of_get? (h : s.get? name = some v) : arrayAt name s = v.asArray := by
  rw [arrayAt, h]; rfl

theorem valueOf_of_get? (hv : s.get? name = some v) (ht : v.toTensor = .ok v.asArray) :
    valueOf name s = .ok (arrayAt name s) := by
  rw [arrayAt_of_get? hv]
  simp only [valueOf, hv, ht]; rfl

theorem valueOf_of_mem (h : isRecordable chains = true) (hs : s ∈ chains.flatten)
    (hn : name ∈ s.keys) : valueOf name s = .ok (arrayAt name s) := by
  obtain ⟨v, hv⟩ := exists_get? hn
  exact valueOf_of_get? hv (Value.asArray_spec (isRecordable_of_get? h hs hv)).toTensor

theorem valueOf_of_not_mem (hn : name ∉ s.keys) :
    valueOf name s = .error (.variableMissing name) := by
  simp only [valueOf, get?_eq_none hn]

/-- The arrays of a variable, chain by chain. -/
def arrays (chains : List Draws) (name : String) : List (List Tensor) :=
  chains.map fun draws => draws.map (arrayAt name)

/-- The arrays of a variable that every state has as an array. -/
theorem valuesOf_of_forall (h : ∀ s ∈ chains.flatten, valueOf name s = .ok (arrayAt name s)) :
    valuesOf chains name = .ok (arrays chains name) :=
  mapM_eq_map fun draws hdraws => mapM_eq_map fun s hs =>
    h s (List.mem_flatten.2 ⟨draws, hdraws, hs⟩)

/-- **The arrays of a variable** that no state lacks are found. -/
theorem valuesOf_eq (h : isRecordable chains = true) (he : Everywhere chains name) :
    valuesOf chains name = .ok (arrays chains name) :=
  valuesOf_of_forall fun s hs => valueOf_of_mem h hs (he s hs)

/-- **A variable that some state lacks** has no arrays. -/
theorem valuesOf_error (h : isRecordable chains = true) (he : ¬ Everywhere chains name) :
    valuesOf chains name = .error (.variableMissing name) := by
  have hvalue : ∀ s ∈ chains.flatten, ∀ e, valueOf name s = .error e →
      e = .variableMissing name := by
    intro s hs e hf
    by_cases hn : name ∈ s.keys
    · cases (valueOf_of_mem h hs hn).symm.trans hf
    · cases (valueOf_of_not_mem hn).symm.trans hf; rfl
  simp only [Everywhere, Classical.not_forall] at he
  obtain ⟨s, hs, hn⟩ := he
  obtain ⟨draws, hdraws, hs'⟩ := List.mem_flatten.1 hs
  refine mapM_eq_error_of_mem ?_
    ⟨draws, hdraws, mapM_eq_error_of_mem ?_ ⟨s, hs', valueOf_of_not_mem hn⟩⟩
  · intro draws' hdraws' e he'
    obtain ⟨s', hs', hf⟩ := mapM_eq_error he'
    exact hvalue s' (List.mem_flatten.2 ⟨draws', hdraws', hs'⟩) e hf
  · intro s' hs' e hf
    exact hvalue s' (List.mem_flatten.2 ⟨draws, hdraws, hs'⟩) e hf

theorem map_arrayAt_of_forall : ∀ {l : List State}, (∀ s ∈ l, name ∈ s.keys) →
    l.map (arrayAt name) = (l.filterMap fun s => s.get? name).map Value.asArray
  | [], _ => rfl
  | s :: l, h => by
    obtain ⟨v, hv⟩ := exists_get? (h s List.mem_cons_self)
    have ih := map_arrayAt_of_forall fun s' hs' => h s' (List.mem_cons_of_mem s hs')
    rw [List.map_cons, List.filterMap_cons, hv, arrayAt_of_get? hv, ih]; rfl

/-- The arrays of a variable, one after the other. -/
theorem flatten_arrays (he : Everywhere chains name) :
    (arrays chains name).flatten = (recorded chains name).map Value.asArray := by
  unfold arrays
  rw [← List.map_flatten]; exact map_arrayAt_of_forall he

theorem map_shape_arrays (h : isRecordable chains = true) (he : Everywhere chains name) :
    (arrays chains name).flatten.map Tensor.shape = (recorded chains name).map Value.dims := by
  rw [flatten_arrays he, List.map_map]
  exact List.map_congr_left fun v hv => (Value.asArray_spec (isRecordable_of_mem h hv)).shape

theorem map_kind_arrays (h : isRecordable chains = true) (he : Everywhere chains name) :
    (arrays chains name).flatten.map Tensor.kind = (recorded chains name).map Value.kind := by
  rw [flatten_arrays he, List.map_map]
  exact List.map_congr_left fun v hv => (Value.asArray_spec (isRecordable_of_mem h hv)).kind

/-- Every array of a variable comes from one of its values. -/
theorem exists_of_mem_arrays (h : isRecordable chains = true) (he : Everywhere chains name)
    {t : Tensor} (ht : t ∈ (arrays chains name).flatten) :
    ∃ v ∈ recorded chains name, t.shape = v.dims ∧ t.kind.isBasic = true := by
  rw [flatten_arrays he] at ht
  obtain ⟨v, hv, rfl⟩ := List.mem_map.1 ht
  have hrec := isRecordable_of_mem h hv
  have harray := Value.asArray_spec hrec
  exact ⟨v, hv, harray.shape, by rw [harray.kind]; exact Value.isBasic_kind hrec⟩

/-- The array of a variable at a draw, by its places among all arrays. -/
theorem array_of_stateAt? (he : Everywhere chains name) {c d : Nat}
    (hs : stateAt? chains c d = some s) :
    ∃ v ts, s.get? name = some v ∧ v ∈ recorded chains name ∧
      (arrays chains name)[c]? = some ts ∧ ts[d]? = some v.asArray := by
  obtain ⟨draws, hdraws, hd⟩ := Option.bind_eq_some_iff.1 hs
  have hmem : s ∈ chains.flatten :=
    List.mem_flatten.2 ⟨draws, List.mem_of_getElem? hdraws, List.mem_of_getElem? hd⟩
  obtain ⟨v, hv⟩ := exists_get? (he s hmem)
  refine ⟨v, draws.map (arrayAt name), hv, mem_recorded_iff.2 ⟨s, hmem, hv⟩, ?_, ?_⟩
  · rw [arrays, List.getElem?_map, hdraws]; rfl
  · rw [List.getElem?_map, hd, Option.map_some, arrayAt_of_get? hv]

end Assembly

end Gibbs
