/-
  Complete records: every state has every variable.

  If all chains have as many draws, and all states the same names with values that can be made
  arrays, the values of a variable are all that can keep the record from being stacked or
  tabulated: they must have one shape, and for a table also one letter.

  * `Complete`: such records;
  * `SameShape`, `SameLetter`: the values of a variable as arrays;
  * `Complete.tensorOf_cases`, `Complete.columnsOf_cases`: one variable;
  * `Complete.tensors_cases`, `Complete.table_cases`: all of them.
-/
import Gibbs.Proofs.Assembly.Table
import Gibbs.Proofs.Assembly.Tensors
import Gibbs.Proofs.Distribution.Draw

namespace Gibbs

/-- Whether an error says that draws cannot be packaged. -/
def Error.isAssembly (e : Error) : Bool := e.isShapeMismatch || e.isTypeMismatch

/-- Whether an error says that the values of a variable differ. -/
def Error.isDifference : Error → Bool
  | .stackedShapes _ _ _ | .rowShape _ _ _ | .rowKind _ _ _ => true
  | _ => false

theorem Error.isAssembly_of_isDifference : ∀ {e : Error}, e.isDifference = true →
    e.isAssembly = true
  | .stackedShapes _ _ _, _ => rfl
  | .rowShape _ _ _, _ => rfl
  | .rowKind _ _ _, _ => rfl

namespace Assembly

/-- The values of a variable have one shape. -/
def SameShape (chains : List Draws) (name : String) : Prop :=
  ∀ v ∈ recorded chains name, ∀ w ∈ recorded chains name, v.asArray.shape = w.asArray.shape

/-- The values of a variable have one letter. -/
def SameLetter (chains : List Draws) (name : String) : Prop :=
  ∀ v ∈ recorded chains name, ∀ w ∈ recorded chains name,
    v.asArray.kind.letter = w.asArray.kind.letter

instance (chains : List Draws) (name : String) : Decidable (SameShape chains name) :=
  inferInstanceAs (Decidable (∀ v ∈ recorded chains name, ∀ w ∈ recorded chains name, _))

instance (chains : List Draws) (name : String) : Decidable (SameLetter chains name) :=
  inferInstanceAs (Decidable (∀ v ∈ recorded chains name, ∀ w ∈ recorded chains name, _))

/-- Chains of `N` draws each, whose states have the given names, in this order, and values that
    are numbers and arrays. -/
structure Complete (chains : List Draws) (keys : List String) (N : Nat) : Prop where
  ne_nil : chains ≠ []
  draws : N ≠ 0
  length : ∀ draws ∈ chains, draws.length = N
  keys : ∀ s ∈ chains.flatten, s.keys = keys
  numeric : ∀ s ∈ chains.flatten, ∀ name v, s.get? name = some v → v.isNumeric = true

namespace Complete

variable {chains : List Draws} {keys : List String} {N : Nat} {name : String}

theorem equal_lengths (h : Complete chains keys N) :
    ∀ draws ∈ chains, ∀ other ∈ chains, draws.length = other.length :=
  fun draws hd other ho => (h.length draws hd).trans (h.length other ho).symm

theorem leadingNames_eq (h : Complete chains keys N) : leadingNames chains = keys := by
  obtain ⟨draws, hdraws⟩ := List.exists_mem_of_ne_nil chains h.ne_nil
  have hlen : draws.length ≠ 0 := by rw [h.length draws hdraws]; exact h.draws
  obtain ⟨s, hs⟩ := List.exists_mem_of_ne_nil draws fun hnil => hlen (by rw [hnil]; rfl)
  have hmem : s ∈ chains.flatten := List.mem_flatten.2 ⟨draws, hdraws, hs⟩
  rw [← variableNames_eq]
  unfold variableNames
  split
  · next hnil => rw [hnil] at hmem; cases hmem
  · next t rest ht => exact h.keys t (by rw [ht]; exact List.mem_cons_self)

theorem everywhere (h : Complete chains keys N) (hn : name ∈ keys) : Everywhere chains name :=
  fun s hs => (h.keys s hs).symm ▸ hn

theorem valuesOf_eq (h : Complete chains keys N) (hn : name ∈ keys) :
    valuesOf chains name = .ok (arrays chains name) := by
  refine valuesOf_of_forall fun s hs => ?_
  obtain ⟨v, hv⟩ := exists_get? (h.everywhere hn s hs)
  obtain ⟨t, ht⟩ := Value.exists_toTensor (h.numeric s hs name v hv)
  exact valueOf_of_get? hv (Value.toTensor_asArray ht)

theorem recorded_ne_nil (h : Complete chains keys N) (hn : name ∈ keys) :
    recorded chains name ≠ [] := by
  rw [← h.leadingNames_eq] at hn
  obtain ⟨first, rest, hr⟩ := exists_recorded hn
  rw [hr]; exact List.cons_ne_nil _ _

/-- The shape of the values of a variable. -/
theorem sameShape_iff (h : Complete chains keys N) (hn : name ∈ keys) : SameShape chains name ↔
    ∃ s, ∀ t ∈ (arrays chains name).flatten, t.shape = s := by
  rw [flatten_arrays (h.everywhere hn)]
  simp only [List.forall_mem_map]
  constructor
  · intro hs
    obtain ⟨v, hv⟩ := List.exists_mem_of_ne_nil _ (h.recorded_ne_nil hn)
    exact ⟨v.asArray.shape, fun w hw => hs w hw v hv⟩
  · rintro ⟨s, hs⟩ v hv w hw
    exact (hs v hv).trans (hs w hw).symm

/-- **The array of a variable:** it exists exactly if the values have one shape. -/
theorem tensorOf_cases (h : Complete chains keys N) (hn : name ∈ keys) :
    (SameShape chains name ∧ ∃ a s, tensorOf chains name = .ok a ∧
      a.shape = s ++ [N, chains.length] ∧ ∀ v ∈ recorded chains name, v.asArray.shape = s) ∨
    (¬ SameShape chains name ∧
      ∃ e, tensorOf chains name = .error e ∧ e.isDifference = true) := by
  have hv := h.valuesOf_eq hn
  by_cases hs : SameShape chains name
  · obtain ⟨s, hall⟩ := (h.sameShape_iff hn).1 hs
    have hlen : ∀ ts ∈ arrays chains name, ts.length = N := by
      intro ts hts
      obtain ⟨draws, hdraws, rfl⟩ := List.mem_map.1 hts
      rw [List.length_map]; exact h.length draws hdraws
    have hne : arrays chains name ≠ [] := by
      simpa only [arrays, ne_eq, List.map_eq_nil_iff] using h.ne_nil
    obtain ⟨a, ha, hshape, -⟩ := tensorOf_of_shape hv hne h.draws hlen hall
    refine .inl ⟨hs, a, s, ha, by rw [hshape, arrays, List.length_map], fun v hvr => ?_⟩
    rw [flatten_arrays (h.everywhere hn)] at hall
    exact hall _ (List.mem_map_of_mem hvr)
  · have htensor := tensorOf_of_values hv rfl
    have hothers : ¬ (otherShapes (((arrays chains name).flatten.map Tensor.shape).headD [])
        (arrays chains name)).isEmpty = true :=
      fun hempty => hs ((h.sameShape_iff hn).2 ⟨_, isEmpty_otherShapes.1 hempty⟩)
    rw [if_neg hothers] at htensor
    exact .inr ⟨hs, _, htensor, rfl⟩

/-- **The columns of a variable:** they exist exactly if the values have one shape and one
    letter. -/
theorem columnsOf_cases (h : Complete chains keys N) (hn : name ∈ keys) :
    ((SameShape chains name ∧ SameLetter chains name) ∧ ∃ cs, columnsOf chains name = .ok cs) ∨
    (¬ (SameShape chains name ∧ SameLetter chains name) ∧
      ∃ e, columnsOf chains name = .error e ∧ e.isDifference = true) := by
  have hv := h.valuesOf_eq hn
  cases hcheck : checkRows name (arrays chains name).flatten with
  | ok =>
    obtain ⟨s, letter, hall⟩ := checkRows_eq_ok.1 hcheck
    have hne : (arrays chains name).flatten ≠ [] :=
      flatten_ne_nil (by rw [h.leadingNames_eq]; exact hn) hv
    obtain ⟨t, ht, -⟩ := columnsOf_of_values hv hne (fun t ht => (hall t ht).1) hcheck
    rw [flatten_arrays (h.everywhere hn), List.forall_mem_map] at hall
    refine .inl ⟨⟨?_, ?_⟩, _, ht⟩
    · exact fun v hv w hw => (hall v hv).1.trans (hall w hw).1.symm
    · exact fun v hv w hw => (hall v hv).2.trans (hall w hw).2.symm
  | error e =>
    have hfails : columnsOf chains name = .error e :=
      bind_eq_error.2 (.inr ⟨_, hv, bind_eq_error.2 (.inl hcheck)⟩)
    obtain ⟨first, hfirst, t, ht, hdiff⟩ := checkRows_eq_error hcheck
    rw [flatten_arrays (h.everywhere hn)] at hfirst ht
    obtain ⟨v, hvr, rfl⟩ := List.mem_map.1 hfirst
    obtain ⟨w, hwr, rfl⟩ := List.mem_map.1 ht
    rcases hdiff with ⟨hne, rfl⟩ | ⟨-, hne, rfl⟩
    · exact .inr ⟨fun hs => hne (hs.1 w hwr v hvr), _, hfails, rfl⟩
    · exact .inr ⟨fun hs => hne (hs.2 w hwr v hvr), _, hfails, rfl⟩

/-- **All arrays** of a complete record. -/
theorem tensors_cases (h : Complete chains keys N) :
    ((∀ name ∈ keys, SameShape chains name) ∧ ∃ ts, tensors chains = .ok ts ∧
      ts.map Prod.fst = keys ∧ ∀ q ∈ ts, ∃ s, q.2.shape = s ++ [N, chains.length] ∧
        ∀ v ∈ recorded chains q.1, v.asArray.shape = s) ∨
    ((¬ ∀ name ∈ keys, SameShape chains name) ∧
      ∃ e, tensors chains = .error e ∧ e.isDifference = true) := by
  rw [tensors_of_lengths h.equal_lengths, h.leadingNames_eq]
  refine (mapM_cases (P := SameShape chains) (Q := fun e => e.isDifference = true)
    (f := fun name => do return (name, ← tensorOf chains name)) fun name hn => ?_).imp_left ?_
  · rcases h.tensorOf_cases hn with ⟨hs, a, -, ha, -⟩ | ⟨hs, e, he, hdiff⟩
    · exact .inl ⟨hs, (name, a), bind_eq_ok.2 ⟨a, ha, rfl⟩⟩
    · exact .inr ⟨hs, e, bind_eq_error.2 (.inl he), hdiff⟩
  · rintro ⟨hs, ts, hts⟩
    refine ⟨hs, ts, hts, map_fst_of_tensors hts, fun q hq => ?_⟩
    obtain ⟨hn, ha⟩ := tensorOf_of_mem hts hq
    rcases h.tensorOf_cases hn with ⟨-, a, s, ha', hshape, hall⟩ | ⟨-, e, he, -⟩
    · cases ha'.symm.trans ha
      exact ⟨s, hshape, hall⟩
    · cases he.symm.trans ha

/-- **The table** of a complete record. -/
theorem table_cases (h : Complete chains keys N) :
    ((∀ name ∈ keys, SameShape chains name ∧ SameLetter chains name) ∧
      ∃ t, table chains = .ok t) ∨
    ((¬ ∀ name ∈ keys, SameShape chains name ∧ SameLetter chains name) ∧
      ∃ e, table chains = .error e ∧ e.isDifference = true) := by
  rw [table, variableNames_eq, h.leadingNames_eq]
  rcases mapM_cases (Q := fun e : Error => e.isDifference = true)
    fun name hn => h.columnsOf_cases hn with ⟨hs, css, hcss⟩ | ⟨hs, e, he, hdiff⟩
  · exact .inl ⟨hs, _, bind_eq_ok.2 ⟨css, hcss, rfl⟩⟩
  · exact .inr ⟨hs, e, bind_eq_error.2 (.inl he), hdiff⟩

end Complete

end Assembly

end Gibbs
