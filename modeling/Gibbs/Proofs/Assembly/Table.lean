/-
  Tabulation is exact: the rows, the columns and the cells of a table.

  A record can be tabulated unless a variable of the first state is missing somewhere, or has
  values of different extents or kinds; the first such variable decides on the error.  The
  rows of a table are the draws of the record, chain after chain, and its columns the
  components of the variables.

  * `Uniform`, `Offends`: variables that can be tabulated, and the errors of the others;
  * `map_stateAt?_rowIndex`: the rows are the states of the record, in order;
  * `columnsOf_of_uniform`, `columnsOf_of_not_uniform`: the columns of one variable;
  * `HoldsRows`: what a table holds;
  * `table_exact`: the table of a record.
-/
import Mathlib.Data.List.Basic
import Gibbs.Proofs.Assembly.Label
import Gibbs.Proofs.Assembly.Variable

namespace Gibbs

/-! ## Entries set one after the other -/

theorem setEntry_of_not_mem {α : Type} {name : String} {v : α} : ∀ {l : List (String × α)},
    name ∉ l.map Prod.fst → setEntry name v l = l ++ [(name, v)]
  | [], _ => rfl
  | (n, w) :: l, h => by
    rw [List.map_cons, List.mem_cons, not_or] at h
    rw [setEntry, if_neg fun heq => h.1 heq.symm, setEntry_of_not_mem h.2]; rfl

/-- Entries of distinct names are put one after the other. -/
theorem foldl_setEntry {α : Type} : ∀ {l front : List (String × α)},
    ((front ++ l).map Prod.fst).Nodup →
      l.foldl (fun es e => setEntry e.1 e.2 es) front = front ++ l
  | [], front, _ => (List.append_nil front).symm
  | (n, v) :: l, front, h => by
    have hn : n ∉ front.map Prod.fst := by
      intro hmem
      rw [List.map_append, List.nodup_append] at h
      exact h.2.2 n hmem n List.mem_cons_self rfl
    have happend : front ++ (n, v) :: l = front ++ [(n, v)] ++ l := by simp
    rw [List.foldl_cons, setEntry_of_not_mem hn, foldl_setEntry (by rw [← happend]; exact h),
      happend]

namespace Assembly

variable {chains : List Draws} {name : String}

/-! ## Rows -/

theorem mem_rowIndex_iff {c d : Nat} :
    (c, d) ∈ rowIndex chains ↔ (stateAt? chains c d).isSome = true := by
  simp only [rowIndex, List.mem_flatMap, List.mem_map, List.mem_range, Prod.exists,
    List.mem_zipIdx_iff_getElem?, Prod.mk.injEq]
  constructor
  · rintro ⟨draws, c, hdraws, d, hd, rfl, rfl⟩
    simp [stateAt?, hdraws, hd]
  · intro h
    obtain ⟨s, hs⟩ := Option.isSome_iff_exists.1 h
    obtain ⟨draws, hdraws, hd⟩ := Option.bind_eq_some_iff.1 hs
    exact ⟨draws, c, hdraws, d, (List.getElem?_eq_some_iff.1 hd).1, rfl, rfl⟩

/-- Rows are ordered by chain and then by draw. -/
theorem pairwise_rowIndex (chains : List Draws) :
    (rowIndex chains).Pairwise (Prod.Lex (· < ·) (· < ·)) := by
  refine List.pairwise_flatMap.2 ⟨?_, ?_⟩
  · rintro ⟨draws, c⟩ -
    refine List.pairwise_map.2 (List.pairwise_lt_range.imp fun hlt => ?_)
    exact Prod.Lex.right c hlt
  · have hplaces : chains.zipIdx.Pairwise fun a b => a.2 < b.2 := by
      rw [← List.pairwise_map, List.zipIdx_map_snd]
      exact List.pairwise_lt_range' 1
    refine hplaces.imp ?_
    rintro ⟨draws, c⟩ ⟨other, c'⟩ hlt x hx y hy
    obtain ⟨d, -, rfl⟩ := List.mem_map.1 hx
    obtain ⟨d', -, rfl⟩ := List.mem_map.1 hy
    exact Prod.Lex.left d d' hlt

/-- **The rows** are the states of the record, in order. -/
theorem map_stateAt?_rowIndex (chains : List Draws) :
    (rowIndex chains).map (fun row => stateAt? chains row.1 row.2) = chains.flatten.map some := by
  have hchain : ∀ p ∈ chains.zipIdx,
      ((List.range p.1.length).map fun d => (p.2, d)).map (fun row => stateAt? chains row.1 row.2)
        = p.1.map some := by
    rintro ⟨draws, c⟩ hmem
    have hdraws : chains[c]? = some draws := List.mem_zipIdx_iff_getElem?.1 hmem
    rw [List.map_map, ← map_getElem?_range]
    exact List.map_congr_left fun d _ => by simp [stateAt?, hdraws]
  calc (rowIndex chains).map (fun row => stateAt? chains row.1 row.2)
      = chains.zipIdx.flatMap fun p => p.1.map some := by
        rw [rowIndex, List.map_flatMap]; exact List.flatMap_congr hchain
    _ = (chains.zipIdx.map Prod.fst).flatMap (List.map some) := by rw [List.flatMap_map]
    _ = chains.flatten.map some := by rw [List.zipIdx_map_fst, List.map_flatten]; rfl

/-! ## Checks of one variable -/

/-- Variables that can be tabulated. -/
structure Uniform (chains : List Draws) (name : String) : Prop where
  everywhere : Everywhere chains name
  dims : ∀ v ∈ recorded chains name, ∀ w ∈ recorded chains name, v.dims = w.dims
  letter : ∀ v ∈ recorded chains name, ∀ w ∈ recorded chains name, v.kind.letter = w.kind.letter

/-- Whether a value agrees with the first one. -/
def Agrees (first v : Value) : Prop := v.dims = first.dims ∧ v.kind.letter = first.kind.letter

/-- The error of a variable that cannot be tabulated: some state lacks it, or the first value
    that disagrees with that of the first row does so in its extents, or in nothing but its kind. -/
inductive Offends (chains : List Draws) (name : String) : Error → Prop
  | lacking (h : ¬ Everywhere chains name) : Offends chains name (.variableMissing name)
  | dims {first v : Value} {agreeing rest : List Value} (h : Everywhere chains name)
      (hr : recorded chains name = first :: agreeing ++ v :: rest)
      (ha : ∀ w ∈ agreeing, Agrees first w) (hne : v.dims ≠ first.dims) :
      Offends chains name (.rowShape name first.dims v.dims)
  | kind {first v : Value} {agreeing rest : List Value} (h : Everywhere chains name)
      (hr : recorded chains name = first :: agreeing ++ v :: rest)
      (ha : ∀ w ∈ agreeing, Agrees first w) (hd : v.dims = first.dims)
      (hne : v.kind.letter ≠ first.kind.letter) :
      Offends chains name (.rowKind name first.kind.letter v.kind)

/-- The extents of a variable: those of its first value. -/
def leadingDims (chains : List Draws) (name : String) : Shape :=
  ((recorded chains name).head?.map Value.dims).getD []

theorem exists_recorded (hn : name ∈ leadingNames chains) :
    ∃ first rest, recorded chains name = first :: rest := by
  obtain ⟨s, hs, hk⟩ := mem_leadingNames hn
  obtain ⟨v, hv⟩ := exists_get? hk
  exact List.exists_cons_of_ne_nil (List.ne_nil_of_mem (mem_recorded_iff.2 ⟨s, hs, hv⟩))

/-- The rows are checked value by value. -/
theorem checkRows_arrays (he : Everywhere chains name) {first : Value} {rest : List Value}
    (hr : recorded chains name = first :: rest) : checkRows name (arrays chains name).flatten
      = (first :: rest).forM fun v => checkRow name first.asArray v.asArray := by
  rw [flatten_arrays he, hr]
  exact List.forM_map

theorem agrees_of_checkRow (h : isRecordable chains = true) {first v : Value}
    (hf : first ∈ recorded chains name) (hv : v ∈ recorded chains name)
    (hok : checkRow name first.asArray v.asArray = .ok ()) : Agrees first v := by
  have hfirst := Value.asArray_spec (isRecordable_of_mem h hf)
  have harray := Value.asArray_spec (isRecordable_of_mem h hv)
  rw [checkRow_eq_ok, hfirst.shape, hfirst.kind, harray.shape, harray.kind] at hok
  exact hok

/-- A variable whose values all agree with the first one can be tabulated. -/
theorem uniform_of_agrees (he : Everywhere chains name) (first : Value)
    (ha : ∀ v ∈ recorded chains name, Agrees first v) : Uniform chains name where
  everywhere := he
  dims v hv w hw := (ha v hv).1.trans (ha w hw).1.symm
  letter v hv w hw := (ha v hv).2.trans (ha w hw).2.symm

/-- **The checks of the rows** decide whether a variable can be tabulated. -/
theorem checkRows_cases (h : isRecordable chains = true) (hn : name ∈ leadingNames chains)
    (he : Everywhere chains name) :
    (checkRows name (arrays chains name).flatten = .ok () ∧ Uniform chains name) ∨
    ∃ e, checkRows name (arrays chains name).flatten = .error e ∧ Offends chains name e := by
  obtain ⟨first, rest, hr⟩ := exists_recorded hn
  have hmem : ∀ v ∈ first :: rest, v ∈ recorded chains name := fun v hv => by rw [hr]; exact hv
  have hfirst := hmem first List.mem_cons_self
  rw [checkRows_arrays he hr]
  cases hcheck : (first :: rest).forM fun v => checkRow name first.asArray v.asArray with
  | ok =>
    refine .inl ⟨rfl, uniform_of_agrees he first fun v hv => ?_⟩
    exact agrees_of_checkRow h hfirst hv (forM_eq_ok.1 hcheck v (hr ▸ hv))
  | error e =>
    refine .inr ⟨e, rfl, ?_⟩
    obtain ⟨front, v, back, hsplit, hfront, hv⟩ := forM_eq_error hcheck
    have hvmem : v ∈ recorded chains name := by rw [hr, hsplit]; simp
    have hfa := Value.asArray_spec (isRecordable_of_mem h hfirst)
    have hva := Value.asArray_spec (isRecordable_of_mem h hvmem)
    -- the first row agrees with itself
    obtain ⟨agreeing, rfl⟩ : ∃ agreeing, front = first :: agreeing := by
      cases front with
      | nil =>
        obtain ⟨rfl, -⟩ := List.cons.inj hsplit
        cases (checkRow_eq_ok.2 ⟨rfl, rfl⟩).symm.trans hv
      | cons u front => exact ⟨front, by rw [(List.cons.inj hsplit).1]⟩
    have ha : ∀ w ∈ agreeing, Agrees first w := by
      intro w hw
      refine agrees_of_checkRow h hfirst ?_ (hfront w (List.mem_cons_of_mem first hw))
      rw [hr, hsplit]; simp [hw]
    rw [hsplit] at hr
    rcases checkRow_eq_error hv with ⟨hne, rfl⟩ | ⟨hs, hne, rfl⟩
    · rw [hva.shape, hfa.shape] at hne ⊢
      exact .dims he hr ha hne
    · rw [hva.shape, hfa.shape] at hs
      rw [hva.kind, hfa.kind] at hne ⊢
      exact .kind he hr ha hs hne

theorem not_uniform_of_offends {e : Error} (h : Offends chains name e) : ¬ Uniform chains name := by
  intro hu
  cases h with
  | lacking he => exact he hu.everywhere
  | dims _ hr _ hne => exact hne (hu.dims _ (by rw [hr]; simp) _ (by rw [hr]; simp))
  | kind _ hr _ _ hne => exact hne (hu.letter _ (by rw [hr]; simp) _ (by rw [hr]; simp))

/-- Missing values and other extents are mismatches of shape, other kinds of type. -/
theorem Offends.mismatch {e : Error} (h : Offends chains name e) :
    e.isShapeMismatch = true ∨ e.isTypeMismatch = true := by
  cases h with
  | lacking => exact .inl rfl
  | dims => exact .inl rfl
  | kind => exact .inr rfl

/-! ## Columns of one variable -/

theorem columnsOf_of_not_uniform (h : isRecordable chains = true) (hn : name ∈ leadingNames chains)
    (hu : ¬ Uniform chains name) :
    ∃ e, columnsOf chains name = .error e ∧ Offends chains name e := by
  by_cases he : Everywhere chains name
  · rcases checkRows_cases h hn he with ⟨-, hu'⟩ | ⟨e, hcheck, hoff⟩
    · exact absurd hu' hu
    · refine ⟨e, ?_, hoff⟩
      exact bind_eq_error.2 (.inr ⟨_, valuesOf_eq h he, bind_eq_error.2 (.inl hcheck)⟩)
  · exact ⟨_, bind_eq_error.2 (.inl (valuesOf_error h he)), .lacking he⟩

theorem dims_eq_leadingDims (hu : Uniform chains name) {v : Value}
    (hv : v ∈ recorded chains name) : v.dims = leadingDims chains name := by
  obtain ⟨first, rest, hr⟩ := List.exists_cons_of_ne_nil (List.ne_nil_of_mem hv)
  have hfirst : first ∈ recorded chains name := by rw [hr]; exact List.mem_cons_self
  rw [leadingDims, hr]
  exact hu.dims v hv first hfirst

theorem columnsOf_of_uniform (h : isRecordable chains = true) (hn : name ∈ leadingNames chains)
    (hu : Uniform chains name) :
    ∃ t, columnsOf chains name = .ok ((leadingDims chains name).indices.map fun idx =>
        (componentLabel name idx, columnAt t idx)) ∧
      Tensor.IsStack List.cons (arrays chains name).flatten (leadingDims chains name) t := by
  have hcheck : checkRows name (arrays chains name).flatten = .ok () := by
    rcases checkRows_cases h hn hu.everywhere with ⟨hcheck, -⟩ | ⟨e, -, hoff⟩
    · exact hcheck
    · exact absurd hu (not_uniform_of_offends hoff)
  have hne : (arrays chains name).flatten ≠ [] := by
    obtain ⟨first, rest, hr⟩ := exists_recorded hn
    rw [flatten_arrays hu.everywhere, hr]
    exact List.cons_ne_nil _ _
  have hall : ∀ t ∈ (arrays chains name).flatten,
      t.shape = leadingDims chains name ∧ t.kind.isBasic = true := by
    intro t ht
    obtain ⟨v, hv, hshape, hbasic⟩ := exists_of_mem_arrays h hu.everywhere ht
    exact ⟨hshape.trans (dims_eq_leadingDims hu hv), hbasic⟩
  obtain ⟨t, ht, hstacks⟩ :=
    columnsOf_of_values (valuesOf_eq h hu.everywhere) hne (fun t ht => (hall t ht).1) hcheck
  exact ⟨t, ht, hstacks.isStack hne fun t ht => (hall t ht).2⟩

/-- A column of a stack: its cells are those of the stacked arrays. -/
theorem columnAt_spec {ts : List Tensor} {s : Shape} {t : Tensor}
    (h : Tensor.IsStack List.cons ts s t) {idx : List Nat} (hidx : s.admits idx = true) :
    (columnAt t idx).cells.length = ts.length ∧ ∀ (k : Nat) (u : Tensor), ts[k]? = some u →
      ∃ x, (columnAt t idx).cells[k]? = some x ∧
        Cell.mk (columnAt t idx).kind x = (u.cell idx).widened t.kind := by
  refine ⟨by simp [columnAt, h.shape], ?_⟩
  intro k u hu
  have hk : k < ts.length := (List.getElem?_eq_some_iff.1 hu).1
  refine ⟨t.grid.get (k :: idx), ?_, h.cell k u idx hu hidx⟩
  change ((List.range (t.shape.headD 0)).map fun row => t.grid.get (row :: idx))[k]? = _
  rw [h.shape, List.headD_cons, List.getElem?_map, List.getElem?_range hk]; rfl

/-! ## Tables -/

/-- The table of a record. -/
structure HoldsRows (chains : List Draws) (t : Table) : Prop where
  /-- one row for every draw of every chain, ordered by chain and then by draw -/
  rows : ∀ c d, (c, d) ∈ t.index ↔ (stateAt? chains c d).isSome = true
  ordered : t.index.Pairwise (Prod.Lex (· < ·) (· < ·))
  /-- the components of the variables, in storage order -/
  labels : t.columns.map Prod.fst = (leadingNames chains).flatMap fun name =>
    (leadingDims chains name).indices.map (componentLabel name)
  distinct : (t.columns.map Prod.fst).Nodup
  cells : ∀ name ∈ leadingNames chains, ∀ idx, (leadingDims chains name).admits idx = true →
    ∃ col, (componentLabel name idx, col) ∈ t.columns ∧ col.cells.length = t.index.length ∧
      ∀ (k c d : Nat) s, t.index[k]? = some (c, d) → stateAt? chains c d = some s →
        ∃ v x, s.get? name = some v ∧ v.dims = leadingDims chains name ∧
          col.cells[k]? = some x ∧ Cell.mk col.kind x = v.component idx

theorem length_rowIndex (chains : List Draws) :
    (rowIndex chains).length = chains.flatten.length := by
  simpa only [List.length_map] using congrArg List.length (map_stateAt?_rowIndex chains)

/-- The state of a row is the one at its place among all states. -/
theorem getElem?_flatten {k c d : Nat} {s : State} (hk : (rowIndex chains)[k]? = some (c, d))
    (hs : stateAt? chains c d = some s) : chains.flatten[k]? = some s := by
  have hrow := congrArg (·[k]?) (map_stateAt?_rowIndex chains)
  simp only [List.getElem?_map, hk, Option.map_some, hs] at hrow
  obtain ⟨s', hs', heq⟩ := Option.map_eq_some_iff.1 hrow.symm
  cases heq; exact hs'

/-- The kinds of the arrays of a variable that can be tabulated are the same. -/
theorem kind_eq_of_mem_arrays (h : isRecordable chains = true) (hu : Uniform chains name)
    {t u : Tensor} (ht : t ∈ (arrays chains name).flatten)
    (hmem : u ∈ (arrays chains name).flatten) : t.kind = u.kind := by
  rw [flatten_arrays hu.everywhere] at ht hmem
  obtain ⟨v, hv, rfl⟩ := List.mem_map.1 ht
  obtain ⟨w, hw, rfl⟩ := List.mem_map.1 hmem
  have hv' := isRecordable_of_mem h hv
  have hw' := isRecordable_of_mem h hw
  rw [(Value.asArray_spec hv').kind, (Value.asArray_spec hw').kind]
  exact Kind.eq_of_letter_eq (Value.isBasic_kind hv') (Value.isBasic_kind hw') (hu.letter v hv w hw)

/-- The cells of the column of a component. -/
theorem columnAt_cells (h : isRecordable chains = true) (hu : Uniform chains name) {t : Tensor}
    (ht : Tensor.IsStack List.cons (arrays chains name).flatten (leadingDims chains name) t)
    {idx : List Nat} (hidx : (leadingDims chains name).admits idx = true) {k : Nat} {s : State}
    (hs : chains.flatten[k]? = some s) :
    ∃ v x, s.get? name = some v ∧ v.dims = leadingDims chains name ∧
      (columnAt t idx).cells[k]? = some x ∧ Cell.mk (columnAt t idx).kind x = v.component idx := by
  have hmem : s ∈ chains.flatten := List.mem_of_getElem? hs
  obtain ⟨v, hv⟩ := exists_get? (hu.everywhere s hmem)
  have hvrec : v ∈ recorded chains name := mem_recorded_iff.2 ⟨s, hmem, hv⟩
  have hdims := dims_eq_leadingDims hu hvrec
  have harray : (arrays chains name).flatten[k]? = some v.asArray := by
    rw [arrays, ← List.map_flatten, List.getElem?_map, hs, Option.map_some, arrayAt_of_get? hv]
  have hspec := Value.asArray_spec (isRecordable_of_mem h hvrec)
  have hone : t.kind = v.asArray.kind := by
    rw [ht.kind]
    refine Kind.result_of_forall_eq ?_ ?_ ?_
    · rw [hspec.kind]; exact Value.isBasic_kind (isRecordable_of_mem h hvrec)
    · simpa only [ne_eq, List.map_eq_nil_iff] using List.ne_nil_of_mem (List.mem_of_getElem? harray)
    · intro l hl
      obtain ⟨u, hu', rfl⟩ := List.mem_map.1 hl
      exact kind_eq_of_mem_arrays h hu hu' (List.mem_of_getElem? harray)
  obtain ⟨x, hx, hcol⟩ := (columnAt_spec ht hidx).2 k v.asArray harray
  refine ⟨v, x, hv, hdims, hx, ?_⟩
  have hself : (v.asArray.cell idx).widened t.kind = v.asArray.cell idx := by
    rw [hone]; exact Cell.widened_self (v.asArray.cell idx)
  rw [hcol, hself, hspec.cell idx (by rw [hdims]; exact hidx)]

theorem length_arrays (chains : List Draws) (name : String) :
    (arrays chains name).flatten.length = chains.flatten.length := by
  rw [arrays, ← List.map_flatten, List.length_map]

/-- **The table of a record** whose variables can all be tabulated. -/
theorem table_of_uniform (h : isRecordable chains = true)
    (hb : ∀ name ∈ leadingNames chains, '[' ∉ name.toList)
    (hu : ∀ name ∈ leadingNames chains, Uniform chains name) :
    ∃ t, table chains = .ok t ∧ HoldsRows chains t := by
  obtain ⟨css, hcss⟩ := mapM_ok (f := columnsOf chains) fun name hn => by
    obtain ⟨t, ht, -⟩ := columnsOf_of_uniform h hn (hu name hn)
    exact ⟨_, ht⟩
  have hlabels : css.flatten.map Prod.fst = (leadingNames chains).flatMap fun name =>
      (leadingDims chains name).indices.map (componentLabel name) := by
    rw [List.map_flatten, List.flatMap]
    congr 1
    refine map_of_mapM (fun name hn cs hcs => ?_) hcss
    obtain ⟨t, ht, -⟩ := columnsOf_of_uniform h hn (hu name hn)
    cases ht.symm.trans hcs
    rw [List.map_map]; rfl
  have hnodup : (css.flatten.map Prod.fst).Nodup := by
    rw [hlabels]; exact nodup_componentLabels (nodup_leadingNames chains) hb
  have htable : table chains = .ok ⟨rowIndex chains, css.flatten⟩ := by
    rw [table, variableNames_eq]
    refine bind_eq_ok.2 ⟨css, hcss, ?_⟩
    rw [foldl_setEntry (by simpa using hnodup)]; rfl
  refine ⟨_, htable, fun c d => mem_rowIndex_iff, pairwise_rowIndex chains, hlabels, hnodup, ?_⟩
  intro name hn idx hidx
  obtain ⟨cs, hcs, hcols⟩ := exists_mem_of_mapM hcss hn
  obtain ⟨t, ht, hstack⟩ := columnsOf_of_uniform h hn (hu name hn)
  cases ht.symm.trans hcols
  refine ⟨columnAt t idx, ?_, ?_, ?_⟩
  · refine List.mem_flatten.2 ⟨_, hcs, List.mem_map.2 ⟨idx, ?_, rfl⟩⟩
    exact Shape.mem_indices_iff.2 hidx
  · rw [(columnAt_spec hstack hidx).1, length_arrays]
    exact (length_rowIndex chains).symm
  · intro k c d s hk hs
    exact columnAt_cells h (hu name hn) hstack hidx (getElem?_flatten hk hs)

/-- **The first variable that cannot be tabulated** decides on the error. -/
theorem offends_of_table (h : isRecordable chains = true) {e : Error}
    (he : table chains = .error e) : ∃ front name back,
      leadingNames chains = front ++ name :: back ∧ (∀ n ∈ front, Uniform chains n) ∧
      Offends chains name e := by
  rw [table, variableNames_eq] at he
  rcases bind_eq_error.1 he with he | ⟨css, -, he⟩
  · obtain ⟨front, name, back, hsplit, hfront, hname⟩ := mapM_eq_error_split he
    have hleading : ∀ n ∈ front ++ name :: back, n ∈ leadingNames chains := by
      intro n hn
      rw [hsplit]; exact hn
    refine ⟨front, name, back, hsplit, ?_, ?_⟩
    · intro n hn
      refine Classical.byContradiction fun hu => ?_
      obtain ⟨cs, hcs⟩ := hfront n hn
      obtain ⟨e', he', -⟩ :=
        columnsOf_of_not_uniform h (hleading n (List.mem_append_left _ hn)) hu
      cases he'.symm.trans hcs
    · have hn : name ∈ leadingNames chains := hleading name (by simp)
      by_cases hu : Uniform chains name
      · obtain ⟨t, ht, -⟩ := columnsOf_of_uniform h hn hu
        cases ht.symm.trans hname
      · obtain ⟨e', he', hoff⟩ := columnsOf_of_not_uniform h hn hu
        cases he'.symm.trans hname; exact hoff
  · cases he

/-- Only records whose variables can all be tabulated have a table. -/
theorem uniform_of_table (h : isRecordable chains = true) {t : Table} (ht : table chains = .ok t)
    (hn : name ∈ leadingNames chains) : Uniform chains name := by
  refine Classical.byContradiction fun hu => ?_
  rw [table, variableNames_eq] at ht
  obtain ⟨css, hcss, -⟩ := bind_eq_ok.1 ht
  obtain ⟨cs, -, hcs⟩ := exists_mem_of_mapM hcss hn
  obtain ⟨e, he, -⟩ := columnsOf_of_not_uniform h hn hu
  cases he.symm.trans hcs

/-- **Tabulation is exact:** it fails if and only if some variable cannot be tabulated, with
    the error of the first such variable; otherwise the table holds all draws. -/
theorem table_exact (chains : List Draws) (h : isRecordable chains = true)
    (hb : ∀ name ∈ leadingNames chains, '[' ∉ name.toList) :
    ((∃ e, table chains = .error e) ↔ ∃ name ∈ leadingNames chains, ¬ Uniform chains name) ∧
    (∀ e, table chains = .error e → ∃ front name back,
      leadingNames chains = front ++ name :: back ∧ (∀ n ∈ front, Uniform chains n) ∧
      Offends chains name e ∧ (e.isShapeMismatch = true ∨ e.isTypeMismatch = true)) ∧
    ∀ t, table chains = .ok t → HoldsRows chains t := by
  refine ⟨⟨?_, ?_⟩, ?_, ?_⟩
  · rintro ⟨e, he⟩
    obtain ⟨front, name, back, hsplit, -, hoff⟩ := offends_of_table h he
    exact ⟨name, by rw [hsplit]; simp, not_uniform_of_offends hoff⟩
  · rintro ⟨name, hn, hu⟩
    cases ht : table chains with
    | error e => exact ⟨e, rfl⟩
    | ok t => exact absurd (uniform_of_table h ht hn) hu
  · intro e he
    obtain ⟨front, name, back, hsplit, hfront, hoff⟩ := offends_of_table h he
    exact ⟨front, name, back, hsplit, hfront, hoff, hoff.mismatch⟩
  · intro t ht
    obtain ⟨t', ht', hholds⟩ := table_of_uniform h hb fun name hn => uniform_of_table h ht hn
    cases ht'.symm.trans ht; exact hholds

/-- Three chains of different lengths: a number, and an array of two truth values. -/
def raggedRecord : List Draws :=
  let pair (a b : Bool) : Value := .array ⟨.bool, .ofList [a, b]⟩
  [[.ofList [("x", .float 0.5), ("v", pair true false)],
    .ofList [("x", .float 1.5), ("v", pair false false)]],
   [],
   [.ofList [("v", pair true true), ("x", .float 2.5)]]]

theorem raggedRecord_tabulated : isRecordable raggedRecord = true ∧
    (∀ name ∈ leadingNames raggedRecord, '[' ∉ name.toList) ∧
    ∃ t, table raggedRecord = .ok t ∧ HoldsRows raggedRecord t := by
  have h : isRecordable raggedRecord = true := by decide
  have hb : ∀ name ∈ leadingNames raggedRecord, '[' ∉ name.toList := by decide
  have hu : ∀ name ∈ leadingNames raggedRecord, Uniform raggedRecord name := by
    intro name hn
    have he : ∀ name ∈ leadingNames raggedRecord, ∀ s ∈ raggedRecord.flatten, name ∈ s.keys := by
      decide
    have hd : ∀ name ∈ leadingNames raggedRecord, ∀ v ∈ recorded raggedRecord name,
        ∀ w ∈ recorded raggedRecord name, v.dims = w.dims := by
      decide
    have hl : ∀ name ∈ leadingNames raggedRecord, ∀ v ∈ recorded raggedRecord name,
        ∀ w ∈ recorded raggedRecord name, v.kind.letter = w.kind.letter := by
      decide
    exact ⟨he name hn, hd name hn, hl name hn⟩
  obtain ⟨hiff, -, hholds⟩ := table_exact raggedRecord h hb
  refine ⟨h, hb, ?_⟩
  cases ht : table raggedRecord with
  | ok t => exact ⟨t, rfl, hholds t ht⟩
  | error e =>
    obtain ⟨name, hn, hnot⟩ := hiff.1 ⟨e, ht⟩
    exact absurd (hu name hn) hnot

end Assembly

end Gibbs
