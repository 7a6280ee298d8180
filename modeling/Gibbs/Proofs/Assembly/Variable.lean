/-
  One variable: its array and its columns.

  Given the arrays of its values, a variable has an array of all draws if and only if the
  values have one shape, and columns if and only if they have one shape and one letter.
  Both are stacks of the same arrays, the one of a stack for each chain, the other of all
  rows.

  * `length_valuesOf`: the values of a variable, chain by chain;
  * `stacked_by`: the stacks of the chains, and the stack of these;
  * `tensorOf_of_values`, `columnsOf_of_values`: the two computations, given the values;
  * `cells_columnAt`: the cells of a column of a stack.
-/
import Gibbs.Proofs.Assembly.Recorded
import Gibbs.Assembly.Table
import Gibbs.Assembly.Tensors

namespace Gibbs.Assembly

variable {chains : List Draws} {name : String} {values : List (List Tensor)} {s : Shape}

/-! ## Values -/

theorem length_valuesOf (h : valuesOf chains name = .ok values) :
    values.map List.length = chains.map List.length :=
  map_of_mapM (fun _ _ _ hts => length_of_mapM hts) h

/-- The values of a variable of the first state, in chains with as many draws each. -/
theorem exists_length (hn : name ∈ leadingNames chains)
    (hlen : ∀ draws ∈ chains, ∀ other ∈ chains, draws.length = other.length)
    (h : valuesOf chains name = .ok values) : ∃ n, n ≠ 0 ∧ values ≠ [] ∧
      (∀ draws ∈ chains, draws.length = n) ∧ ∀ ts ∈ values, ts.length = n := by
  obtain ⟨s, hs, -⟩ := mem_leadingNames hn
  obtain ⟨draws, hdraws, hs⟩ := List.mem_flatten.1 hs
  have hlengths := length_valuesOf h
  have hall : ∀ other ∈ chains, other.length = draws.length :=
    fun other ho => hlen other ho draws hdraws
  refine ⟨draws.length, ?_, ?_, hall, ?_⟩
  · exact fun hzero => List.ne_nil_of_mem hs (List.length_eq_zero_iff.1 hzero)
  · rintro rfl
    exact List.ne_nil_of_mem hdraws (List.map_eq_nil_iff.1 hlengths.symm)
  · intro ts hts
    obtain ⟨other, ho, heq⟩ := List.mem_map.1 (hlengths ▸ List.mem_map_of_mem hts)
    rw [← heq]; exact hall other ho

/-- A variable of the first state has values. -/
theorem flatten_ne_nil (hn : name ∈ leadingNames chains) (h : valuesOf chains name = .ok values) :
    values.flatten ≠ [] := by
  obtain ⟨s, hs, -⟩ := mem_leadingNames hn
  have hlengths : values.flatten.length = chains.flatten.length := by
    rw [List.length_flatten, List.length_flatten, length_valuesOf h]
  intro hnil
  rw [hnil] at hlengths
  exact List.ne_nil_of_mem hs (List.length_eq_zero_iff.1 hlengths.symm)

/-! ## The array of a variable -/

/-- The stack of some arrays, inside a computation that may fail. -/
def stackOf (ts : List Tensor) : Except Error Tensor :=
  match Tensor.stackLast? ts with
  | some t => pure t
  | none => .error (.fault .badValue)

theorem stacked_eq (values : List (List Tensor)) :
    stacked values = values.mapM stackOf >>= stackOf := rfl

theorem stackOf_stacks {ts : List Tensor} (hne : ts ≠ []) (hs : ∀ t ∈ ts, t.shape = s) :
    ∃ t, stackOf ts = .ok t ∧ Tensor.Stacks Tensor.last ts s t := by
  obtain ⟨t, ht, hstacks⟩ := Tensor.stackLast?_stacks hne hs
  exact ⟨t, by rw [stackOf, ht]; rfl, hstacks⟩

/-- A stack of stacks: first the values of each chain, then the chains. -/
structure StackedBy (values : List (List Tensor)) (s : Shape) (n : Nat) (us : List Tensor)
    (t : Tensor) : Prop where
  length : us.length = values.length
  kinds : us.map Tensor.kind = values.map Tensor.commonKind
  chain : ∀ (c : Nat) ts, values[c]? = some ts → ∃ u, us[c]? = some u ∧
    Tensor.Stacks Tensor.last ts s u
  outer : Tensor.Stacks Tensor.last us (s ++ [n]) t

theorem StackedBy.shape {n : Nat} {us : List Tensor} {t : Tensor}
    (h : StackedBy values s n us t) : t.shape = s ++ [n, values.length] := by
  rw [h.outer.shape, h.length, Tensor.last, List.append_assoc]; rfl

/-- **Values of one shape** are stacked in two steps. -/
theorem stacked_by {n : Nat} (hne : values ≠ []) (hn : n ≠ 0)
    (hlen : ∀ ts ∈ values, ts.length = n) (hs : ∀ ts ∈ values, ∀ t ∈ ts, t.shape = s) :
    ∃ us t, stacked values = .ok t ∧ StackedBy values s n us t := by
  have hchain : ∀ ts ∈ values, ∃ u, stackOf ts = .ok u ∧ Tensor.Stacks Tensor.last ts s u := by
    intro ts hts
    refine stackOf_stacks ?_ (hs ts hts)
    rintro rfl
    exact hn (hlen [] hts).symm
  have hstack : ∀ ts ∈ values, ∀ u, stackOf ts = .ok u → Tensor.Stacks Tensor.last ts s u := by
    intro ts hts u hu
    obtain ⟨u', hu', h⟩ := hchain ts hts
    cases hu'.symm.trans hu; exact h
  obtain ⟨us, hus⟩ := mapM_ok fun ts hts => (hchain ts hts).imp fun _ h => h.1
  have hlength : us.length = values.length := length_of_mapM hus
  have hne' : us ≠ [] := by
    rintro rfl
    exact hne (List.length_eq_zero_iff.1 hlength.symm)
  have hshape : ∀ u ∈ us, u.shape = s ++ [n] := by
    intro u hu
    obtain ⟨ts, hts, hst⟩ := exists_of_mem_mapM hus hu
    rw [(hstack ts hts u hst).shape, hlen ts hts]; rfl
  obtain ⟨t, ht, hstacks⟩ := stackOf_stacks hne' hshape
  refine ⟨us, t, ?_, hlength, ?_, ?_, hstacks⟩
  · rw [stacked_eq]; exact bind_eq_ok.2 ⟨us, hus, ht⟩
  · exact map_of_mapM (fun ts hts u hu => (hstack ts hts u hu).kind) hus
  · intro c ts hts
    obtain ⟨u, hu, hst⟩ := getElem?_of_mapM hus hts
    exact ⟨u, hu, hstack ts (List.mem_of_getElem? hts) u hst⟩

theorem isEmpty_otherShapes {expected : Shape} {values : List (List Tensor)} :
    (otherShapes expected values).isEmpty = true ↔ ∀ t ∈ values.flatten, t.shape = expected := by
  rw [List.isEmpty_iff, List.eq_nil_iff_forall_not_mem]
  simp only [otherShapes, List.mem_mergeSort, List.mem_eraseDups, List.mem_filter, List.mem_map,
    bne_iff_ne, ne_eq, not_and, Classical.not_not]
  constructor
  · intro h t ht
    exact h t.shape ⟨t, ht, rfl⟩
  · rintro h _ ⟨t, ht, rfl⟩
    exact h t ht

/-- The computation of the array of a variable from its values. -/
theorem tensorOf_of_values (h : valuesOf chains name = .ok values)
    {expected : Shape} (hexpected : (values.flatten.map Tensor.shape).headD [] = expected) :
    tensorOf chains name = if (otherShapes expected values).isEmpty then stacked values
      else .error (.stackedShapes name expected (otherShapes expected values)) := by
  rw [tensorOf, h]
  change (if (!(otherShapes _ _).isEmpty) = true then _ else _) = _
  rw [hexpected]
  cases (otherShapes expected values).isEmpty <;> rfl

/-- **Values of one shape** have an array: its axes are those of a value, then the draws, then
    the chains; values of one letter stand in it in their common kind. -/
theorem tensorOf_of_shape (h : valuesOf chains name = .ok values) {n : Nat} (hne : values ≠ [])
    (hn : n ≠ 0) (hlen : ∀ ts ∈ values, ts.length = n) (hs : ∀ t ∈ values.flatten, t.shape = s) :
    ∃ a, tensorOf chains name = .ok a ∧ a.shape = s ++ [n, values.length] ∧
      ∀ letter, (∀ t ∈ values.flatten, t.kind.letter = letter) →
        a.kind = Tensor.commonKind values.flatten ∧
        ∀ c ts d v idx, values[c]? = some ts → ts[d]? = some v → s.admits idx = true →
          a.cell (idx ++ [d, c]) = (v.cell idx).converted a.kind := by
  have hmem : ∀ ts ∈ values, ∀ t ∈ ts, t ∈ values.flatten :=
    fun ts hts t ht => List.mem_flatten.2 ⟨ts, hts, ht⟩
  have hnil : ∀ ts ∈ values, ts ≠ [] := by
    rintro ts hts rfl
    exact hn (hlen [] hts).symm
  have hflat : values.flatten ≠ [] := by
    obtain ⟨ts, hts⟩ := List.exists_mem_of_ne_nil values hne
    obtain ⟨t, ht⟩ := List.exists_mem_of_ne_nil ts (hnil ts hts)
    exact List.ne_nil_of_mem (hmem ts hts t ht)
  obtain ⟨us, a, ha, hby⟩ :=
    stacked_by hne hn hlen fun ts hts t ht => hs t (hmem ts hts t ht)
  refine ⟨a, ?_, hby.shape, fun letter hl => ?_⟩
  · rw [tensorOf_of_values h (headD_map hflat hs), if_pos (isEmpty_otherShapes.2 hs)]
    exact ha
  · have hl' : ∀ ts ∈ values, ∀ t ∈ ts, t.kind.letter = letter :=
      fun ts hts t ht => hl t (hmem ts hts t ht)
    have hkind : a.kind = Tensor.commonKind values.flatten :=
      hby.outer.kind.trans (Tensor.commonKind_flatten hne hnil hl' hby.kinds)
    refine ⟨hkind, ?_⟩
    intro c ts d v idx hts hv hidx
    have htsmem : ts ∈ values := List.mem_of_getElem? hts
    obtain ⟨u, hu, hchain⟩ := hby.chain c ts hts
    have hvu : v.kind.Fits u.kind := by
      rw [hchain.kind]
      exact (Tensor.isWidest_commonKind (hnil ts htsmem) (hl' ts htsmem)).fits _
        (List.mem_map_of_mem (List.mem_of_getElem? hv))
    have hut : u.kind.Fits a.kind := by
      -- the kind of a chain is the kind of one of its values
      obtain ⟨w, hw, hwu⟩ := List.mem_map.1
        (Tensor.isWidest_commonKind (hnil ts htsmem) (hl' ts htsmem)).mem
      rw [hchain.kind, hkind, ← hwu]
      exact (Tensor.isWidest_commonKind hflat hl).fits _ (List.mem_map_of_mem (hmem ts htsmem w hw))
    refine hchain.cell_cell ?_ hvu hut hu hv hidx
    rw [hlen ts htsmem]; exact hby.outer

/-- Only values of one shape have an array. -/
theorem shape_of_tensorOf {a : Tensor} (h : tensorOf chains name = .ok a) :
    ∃ values s, valuesOf chains name = .ok values ∧ ∀ t ∈ values.flatten, t.shape = s := by
  obtain ⟨values, hv, -⟩ := bind_eq_ok.1 h
  rw [tensorOf_of_values hv rfl] at h
  split at h
  · next hempty => exact ⟨values, _, hv, isEmpty_otherShapes.1 hempty⟩
  · cases h

/-! ## The columns of a variable -/

theorem checkRow_eq_ok {first t : Tensor} : checkRow name first t = .ok () ↔
    t.shape = first.shape ∧ t.kind.letter = first.kind.letter := by
  unfold checkRow
  split
  · next hs => exact iff_of_false nofun fun h => (bne_iff_ne.1 hs) h.1
  · next hs =>
    split
    · next hk => exact iff_of_false nofun fun h => (bne_iff_ne.1 hk) h.2
    · next hk => exact iff_of_true rfl ⟨by simpa using hs, by simpa using hk⟩

theorem checkRow_eq_error {first t : Tensor} {e : Error} (h : checkRow name first t = .error e) :
    (t.shape ≠ first.shape ∧ e = .rowShape name first.shape t.shape) ∨
    (t.shape = first.shape ∧ t.kind.letter ≠ first.kind.letter ∧
      e = .rowKind name first.kind.letter t.kind) := by
  unfold checkRow at h
  split at h
  · next hs => cases h; exact .inl ⟨bne_iff_ne.1 hs, rfl⟩
  · next hs =>
    split at h
    · next hk => cases h; exact .inr ⟨by simpa using hs, bne_iff_ne.1 hk, rfl⟩
    · cases h

/-- **The checks of all rows** pass if and only if the rows have one shape and one letter. -/
theorem checkRows_eq_ok {rows : List Tensor} : checkRows name rows = .ok () ↔
    ∃ s letter, ∀ t ∈ rows, t.shape = s ∧ t.kind.letter = letter := by
  cases rows with
  | nil => exact iff_of_true rfl ⟨[], "", nofun⟩
  | cons first rest =>
    unfold checkRows
    rw [forM_eq_ok]
    simp only [checkRow_eq_ok]
    constructor
    · intro h
      exact ⟨first.shape, first.kind.letter, h⟩
    · rintro ⟨s, letter, h⟩ t ht
      obtain ⟨hs, hl⟩ := h first List.mem_cons_self
      rw [hs, hl]; exact h t ht

/-- Checks that do not pass have found two rows that differ, and name in what. -/
theorem checkRows_eq_error {rows : List Tensor} {e : Error} (h : checkRows name rows = .error e) :
    ∃ first ∈ rows, ∃ t ∈ rows,
      (t.shape ≠ first.shape ∧ e = .rowShape name first.shape t.shape) ∨
      (t.shape = first.shape ∧ t.kind.letter ≠ first.kind.letter ∧
        e = .rowKind name first.kind.letter t.kind) := by
  cases rows with
  | nil => cases h
  | cons first rest =>
    obtain ⟨front, t, back, hsplit, -, ht⟩ := forM_eq_error h
    refine ⟨first, List.mem_cons_self, t, ?_, checkRow_eq_error ht⟩
    rw [hsplit]; exact List.mem_append_right front List.mem_cons_self

/-- **Values of one shape and one letter** have columns, those of the stack of all rows. -/
theorem columnsOf_of_values (h : valuesOf chains name = .ok values) (hne : values.flatten ≠ [])
    (hs : ∀ t ∈ values.flatten, t.shape = s) (hcheck : checkRows name values.flatten = .ok ()) :
    ∃ t, columnsOf chains name
        = .ok (s.indices.map fun idx => (componentLabel name idx, columnAt t idx)) ∧
      Tensor.Stacks List.cons values.flatten s t := by
  obtain ⟨t, ht, hstacks⟩ := Tensor.stackFirst?_stacks hne hs
  refine ⟨t, ?_, hstacks⟩
  refine bind_eq_ok.2 ⟨values, h, bind_eq_ok.2 ⟨(), hcheck, ?_⟩⟩
  simp only [ht, components, hstacks.shape, List.tail_cons, List.map_map]
  rfl

/-- Only values of one shape and one letter have columns. -/
theorem alike_of_columnsOf {cs : List (String × Column)} (h : columnsOf chains name = .ok cs) :
    ∃ values s letter, valuesOf chains name = .ok values ∧
      checkRows name values.flatten = .ok () ∧
      ∀ t ∈ values.flatten, t.shape = s ∧ t.kind.letter = letter := by
  obtain ⟨values, hv, h⟩ := bind_eq_ok.1 h
  obtain ⟨⟨⟩, hcheck, -⟩ := bind_eq_ok.1 h
  obtain ⟨s, letter, hall⟩ := checkRows_eq_ok.1 hcheck
  exact ⟨values, s, letter, hv, hcheck, hall⟩

/-- **The cells of a column** of a stack: those of the stacked arrays at one position. -/
theorem cells_columnAt {ts : List Tensor} {t : Tensor} (h : Tensor.Stacks List.cons ts s t)
    {idx : List Nat} (hidx : s.admits idx = true) :
    (columnAt t idx).cells.map (Cell.mk (columnAt t idx).kind)
      = ts.map fun u => (u.cell idx).converted t.kind := by
  refine List.ext_getElem? fun k => ?_
  change (((List.range (t.shape.headD 0)).map fun row => t.grid.get (row :: idx)).map
    (Cell.mk t.kind))[k]? = _
  rw [h.shape, List.headD_cons, List.map_map, List.getElem?_map, List.getElem?_map]
  cases hu : ts[k]? with
  | none =>
    rw [List.getElem?_eq_none (by simpa using List.getElem?_eq_none_iff.1 hu)]; rfl
  | some u =>
    have hk : k < ts.length := (List.getElem?_eq_some_iff.1 hu).1
    rw [List.getElem?_range hk]
    exact congrArg some (h.cell k u idx hu hidx)

end Gibbs.Assembly
