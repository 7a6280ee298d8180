/-
  Arrays and tables agree.

  A record with as many draws in each chain that can be tabulated can be stacked, and then the
  column of a component holds, in the rows of a chain, the cells of the array along its axis
  of draws.  A record that can be stacked can be tabulated unless its numbers differ in kind.

  * `Table.ofChain`, `slice`: the cells of a chain, in a column and in an array;
  * `inChain_rowIndex`: the rows of a chain are next to each other;
  * `ColumnsAgree`, `columns_agree`: an array and the columns of the same variable;
  * `TableAgrees`, `formats_agree`: all arrays and the whole table.
-/
import Gibbs.Proofs.Assembly.Table
import Gibbs.Proofs.Assembly.Tensors

namespace Gibbs.Assembly

/-! ## The cells of a chain -/

/-- The entries of a list that stand in the rows of a chain. -/
def inChain {α : Type} (index : List (Nat × Nat)) (c : Nat) (l : List α) : List α :=
  (index.zip l).filterMap fun row => if row.1.1 = c then some row.2 else none

/-- The cells of a column in the rows of a chain. -/
def Table.ofChain (t : Table) (c : Nat) (col : Column) : List Cell :=
  inChain t.index c (col.cells.map (Cell.mk col.kind))

/-- The cells of an array at a component and a chain, draw by draw. -/
def slice (a : Tensor) (idx : List Nat) (c : Nat) : List Cell :=
  (List.range (a.shape.getD idx.length 0)).map fun d => a.cell (idx ++ [d, c])

/-- The extents of the values in an array whose last axes run over draws and chains. -/
def valueShape (a : Tensor) : Shape := a.shape.dropLast.dropLast

theorem inChain_append {α : Type} {is js : List (Nat × Nat)} {l m : List α} (c : Nat)
    (h : is.length = l.length) :
    inChain (is ++ js) c (l ++ m) = inChain is c l ++ inChain js c m := by
  rw [inChain, List.zip_append h, List.filterMap_append]; rfl

/-- The rows of one chain alone. -/
theorem inChain_of_forall {α : Type} (b c : Nat) : ∀ {is : List (Nat × Nat)} {l : List α},
    is.length = l.length → (∀ i ∈ is, i.1 = b) → inChain is c l = if b = c then l else []
  | [], [], _, _ => by simp [inChain]
  | (b', d) :: is, x :: l, hlen, hb => by
    obtain ⟨rfl, hb⟩ := List.forall_mem_cons.1 hb
    have ih := inChain_of_forall b' c (Nat.succ.inj hlen) hb
    unfold inChain at ih ⊢
    rw [List.zip_cons_cons, List.filterMap_cons, ih]
    split <;> simp_all

/-- The rows of several chains, counted from some place on. -/
theorem inChain_zipIdx {α : Type} (c : Nat) : ∀ (chains : List Draws) (values : List (List α))
    (k : Nat), values.map List.length = chains.map List.length →
    inChain ((chains.zipIdx k).flatMap fun p => (List.range p.1.length).map fun d => (p.2, d)) c
      values.flatten = if k ≤ c then values.getD (c - k) [] else []
  | [], [], _, _ => by simp [inChain]
  | draws :: chains, vs :: values, k, h => by
    obtain ⟨hlen, h⟩ := List.cons.inj h
    have ih := inChain_zipIdx c chains values (k + 1) h
    have hfirst : inChain ((List.range draws.length).map fun d => (k, d)) c vs
        = if k = c then vs else [] :=
      inChain_of_forall k c (by simpa using hlen.symm) (by simp)
    rw [List.zipIdx_cons, List.flatMap_cons, List.flatten_cons,
      inChain_append c (by simpa using hlen.symm), hfirst, ih]
    rcases Nat.lt_trichotomy k c with hlt | rfl | hlt
    · obtain ⟨m, rfl⟩ := Nat.exists_eq_add_of_lt hlt
      rw [if_neg (by omega), if_pos (by omega), if_pos (by omega),
        show k + m + 1 - k = m + 1 by omega, show k + m + 1 - (k + 1) = m by omega]
      rfl
    · rw [if_pos rfl, if_neg (by omega), if_pos (Nat.le_refl k), Nat.sub_self,
        List.append_nil]
      rfl
    · rw [if_neg (by omega), if_neg (by omega), if_neg (by omega)]; rfl

/-- **The rows of a chain** hold what stands in the chain. -/
theorem inChain_rowIndex {α : Type} {chains : List Draws} {values : List (List α)} (c : Nat)
    (h : values.map List.length = chains.map List.length) :
    inChain (rowIndex chains) c values.flatten = values.getD c [] := by
  have hrows := inChain_zipIdx c chains values 0 h
  rw [if_pos (Nat.zero_le c)] at hrows; exact hrows

/-! ## One variable -/

variable {chains : List Draws} {name : String}

/-- The array and the columns of a variable hold the same cells. -/
structure ColumnsAgree (chains : List Draws) (name : String) (a : Tensor)
    (cs : List (String × Column)) : Prop where
  shape : ∀ draws ∈ chains, a.shape = valueShape a ++ [draws.length, chains.length]
  labels : cs.map Prod.fst = (valueShape a).indices.map (componentLabel name)
  cells : ∀ idx, (valueShape a).admits idx = true → ∃ col, (componentLabel name idx, col) ∈ cs ∧
    ∀ c < chains.length,
      inChain (rowIndex chains) c (col.cells.map (Cell.mk col.kind)) = slice a idx c

theorem valueShape_of_shape {a : Tensor} {s : Shape} {m n : Nat} (h : a.shape = s ++ [m, n]) :
    valueShape a = s := by
  rw [valueShape, h]; simp

/-- A slice of an array whose cells are those of the values of a chain. -/
theorem slice_eq {a : Tensor} {s : Shape} {n C c : Nat} {idx : List Nat} {ts : List Tensor}
    (hshape : a.shape = s ++ [n, C]) (hlen : ts.length = n) (hidx : s.admits idx = true)
    (hcell : ∀ d v, ts[d]? = some v → a.cell (idx ++ [d, c]) = (v.cell idx).converted a.kind) :
    slice a idx c = ts.map fun v => (v.cell idx).converted a.kind := by
  have hextent : a.shape.getD idx.length 0 = ts.length := by
    rw [hshape, Shape.length_of_admits hidx, hlen]; simp
  rw [slice, hextent]
  refine List.ext_getElem? fun d => ?_
  rw [List.getElem?_map, List.getElem?_map]
  cases hv : ts[d]? with
  | none => rw [List.getElem?_eq_none (by simpa using List.getElem?_eq_none_iff.1 hv)]; rfl
  | some v =>
    rw [List.getElem?_range (List.getElem?_eq_some_iff.1 hv).1]
    exact congrArg some (hcell d v hv)

/-- **A variable that can be tabulated** can be stacked, and the cells agree. -/
theorem columns_agree (hn : name ∈ leadingNames chains)
    (hlen : ∀ draws ∈ chains, ∀ other ∈ chains, draws.length = other.length)
    {cs : List (String × Column)} (h : columnsOf chains name = .ok cs) :
    ∃ a, tensorOf chains name = .ok a ∧ ColumnsAgree chains name a cs := by
  obtain ⟨values, s, letter, hv, hcheck, hall⟩ := alike_of_columnsOf h
  obtain ⟨n, hn0, hne, hlenc, hlenv⟩ := exists_length hn hlen hv
  have hs : ∀ t ∈ values.flatten, t.shape = s := fun t ht => (hall t ht).1
  have hl : ∀ t ∈ values.flatten, t.kind.letter = letter := fun t ht => (hall t ht).2
  obtain ⟨a, ha, hshape, hcells⟩ := tensorOf_of_shape hv hne hn0 hlenv hs
  obtain ⟨hkind, hcell⟩ := hcells letter hl
  obtain ⟨t, ht, hstacks⟩ := columnsOf_of_values hv (flatten_ne_nil hn hv) hs hcheck
  cases ht.symm.trans h
  have hlengths := length_valuesOf hv
  have hcount : values.length = chains.length := by simpa using congrArg List.length hlengths
  have hvalue : valueShape a = s := valueShape_of_shape hshape
  refine ⟨a, ha, ?_, ?_, ?_⟩
  · intro draws hdraws
    rw [hvalue, hshape, hlenc draws hdraws, hcount]
  · rw [hvalue, List.map_map]; rfl
  · rw [hvalue]
    intro idx hidx
    refine ⟨columnAt t idx, List.mem_map.2 ⟨idx, Shape.mem_indices_iff.2 hidx, rfl⟩, ?_⟩
    intro c hc
    obtain ⟨ts, hts⟩ : ∃ ts, values[c]? = some ts := ⟨values[c], by simp [hcount, hc]⟩
    have hkinds : t.kind = a.kind := hstacks.kind.trans hkind.symm
    rw [slice_eq hshape (hlenv ts (List.mem_of_getElem? hts)) hidx
      fun d v hv => hcell c ts d v idx hts hv hidx, cells_columnAt hstacks hidx, hkinds,
      List.map_flatten, inChain_rowIndex c (by rw [List.map_map]; simpa [Function.comp_def])]
    rw [List.getD_eq_getElem?_getD, List.getElem?_map, hts]; rfl

/-! ## All variables -/

/-- The arrays and the table of a record hold the same cells: the variables in the same order,
    and for every component and every chain the column of the one in the rows of the other. -/
structure TableAgrees (chains : List Draws) (t : Table) (ts : List (String × Tensor)) : Prop where
  names : ts.map Prod.fst = leadingNames chains
  labels : t.columns.map Prod.fst = ts.flatMap fun p =>
    (valueShape p.2).indices.map (componentLabel p.1)
  distinct : (t.columns.map Prod.fst).Nodup
  rows : t.index = rowIndex chains
  shape : ∀ p ∈ ts, ∀ draws ∈ chains, p.2.shape = valueShape p.2 ++ [draws.length, chains.length]
  cells : ∀ p ∈ ts, ∀ idx, (valueShape p.2).admits idx = true →
    ∃ col, (componentLabel p.1 idx, col) ∈ t.columns ∧
      ∀ c < chains.length, t.ofChain c col = slice p.2 idx c

/-- The extents of the values of a variable that has an array. -/
def sharedShape (chains : List Draws) (name : String) : Shape :=
  (tensorOf chains name).toOption.elim [] valueShape

theorem sharedShape_of_tensorOf {a : Tensor} (h : tensorOf chains name = .ok a) :
    sharedShape chains name = valueShape a := by
  rw [sharedShape, h]; rfl

/-- **A record that can be tabulated** can be stacked, and the cells agree. -/
theorem tensors_of_table (hlen : ∀ draws ∈ chains, ∀ other ∈ chains, draws.length = other.length)
    (hb : ∀ name ∈ leadingNames chains, '[' ∉ name.toList) {t : Table}
    (h : table chains = .ok t) : ∃ ts, tensors chains = .ok ts ∧ TableAgrees chains t ts := by
  rw [table, variableNames_eq] at h
  obtain ⟨css, hcss, h⟩ := bind_eq_ok.1 h
  have hagree : ∀ name ∈ leadingNames chains, ∀ cs, columnsOf chains name = .ok cs →
      ∃ a, tensorOf chains name = .ok a ∧ ColumnsAgree chains name a cs :=
    fun name hn cs hcs => columns_agree hn hlen hcs
  -- the labels of the columns, by the names of the variables
  have hlabels : css.flatten.map Prod.fst = (leadingNames chains).flatMap fun name =>
      (sharedShape chains name).indices.map (componentLabel name) := by
    rw [List.map_flatten, List.flatMap]
    congr 1
    refine map_of_mapM (fun name hn cs hcs => ?_) hcss
    obtain ⟨a, ha, hag⟩ := hagree name hn cs hcs
    rw [sharedShape_of_tensorOf ha]; exact hag.labels
  have hnodup : (css.flatten.map Prod.fst).Nodup := by
    rw [hlabels]; exact nodup_componentLabels (nodup_leadingNames chains) hb
  rw [foldl_setEntry (by simpa using hnodup)] at h
  cases h
  -- the arrays of the variables
  obtain ⟨ts, hts⟩ := mapM_ok (f := fun name => do return (name, ← tensorOf chains name))
    fun name hn => by
      obtain ⟨cs, -, hcs⟩ := exists_mem_of_mapM hcss hn
      obtain ⟨a, ha, -⟩ := hagree name hn cs hcs
      exact ⟨(name, a), bind_eq_ok.2 ⟨a, ha, rfl⟩⟩
  have hnames := map_fst_of_tensors hts
  have hcolumns : ∀ p ∈ ts, ∃ cs ∈ css, ColumnsAgree chains p.1 p.2 cs := by
    intro p hp
    obtain ⟨hn, ha⟩ := tensorOf_of_mem hts hp
    obtain ⟨cs, hmem, hcs⟩ := exists_mem_of_mapM hcss hn
    obtain ⟨a, ha', hag⟩ := hagree p.1 hn cs hcs
    cases ha'.symm.trans ha
    exact ⟨cs, hmem, hag⟩
  refine ⟨ts, by rw [tensors_of_lengths hlen]; exact hts, hnames, ?_, hnodup, rfl, ?_, ?_⟩
  · change css.flatten.map Prod.fst = _
    rw [hlabels, ← hnames, List.flatMap_map]
    refine List.flatMap_congr fun p hp => ?_
    rw [sharedShape_of_tensorOf (tensorOf_of_mem hts hp).2]
  · intro p hp
    obtain ⟨cs, -, hag⟩ := hcolumns p hp
    exact hag.shape
  · intro p hp idx hidx
    obtain ⟨cs, hmem, hag⟩ := hcolumns p hp
    obtain ⟨col, hcol, hcells⟩ := hag.cells idx hidx
    exact ⟨col, List.mem_flatten.2 ⟨cs, hmem, hcol⟩, hcells⟩

/-- A variable that has an array has columns, or its values differ in kind. -/
theorem columnsOf_of_tensorOf (hn : name ∈ leadingNames chains) {a : Tensor}
    (ha : tensorOf chains name = .ok a) {e : Error} (he : columnsOf chains name = .error e) :
    e.isTypeMismatch = true := by
  obtain ⟨values, s, hv, hs⟩ := shape_of_tensorOf ha
  cases hcheck : checkRows name values.flatten with
  | ok =>
    obtain ⟨t, ht, -⟩ := columnsOf_of_values hv (flatten_ne_nil hn hv) hs hcheck
    cases ht.symm.trans he
  | error e' =>
    have hfails : columnsOf chains name = .error e' :=
      bind_eq_error.2 (.inr ⟨values, hv, bind_eq_error.2 (.inl hcheck)⟩)
    cases hfails.symm.trans he
    obtain ⟨first, hfirst, t, ht, ⟨hne, -⟩ | ⟨-, -, rfl⟩⟩ := checkRows_eq_error hcheck
    · exact absurd ((hs t ht).trans (hs first hfirst).symm) hne
    · rfl

theorem table_of_tensors {ts : List (String × Tensor)} (h : tensors chains = .ok ts) :
    (∃ t, table chains = .ok t) ∨ ∃ e, table chains = .error e ∧ e.isTypeMismatch = true := by
  rw [tensors_of_lengths (lengths_of_tensors h)] at h
  cases ht : table chains with
  | ok t => exact .inl ⟨t, rfl⟩
  | error e =>
    refine .inr ⟨e, rfl, ?_⟩
    rw [table, variableNames_eq] at ht
    rcases bind_eq_error.1 ht with he | ⟨_, -, he⟩
    · obtain ⟨name, hn, he⟩ := mapM_eq_error he
      obtain ⟨p, -, hp⟩ := exists_mem_of_mapM h hn
      obtain ⟨a, ha, -⟩ := bind_eq_ok.1 hp
      exact columnsOf_of_tensorOf hn ha he
    · cases he

/-- **Arrays and tables agree:** with as many draws in each chain, a record that can be
    tabulated can be stacked, and both hold the same cells; one that can be stacked can be
    tabulated unless the values of some variable differ in kind. -/
theorem formats_agree (chains : List Draws)
    (hlen : ∀ draws ∈ chains, ∀ other ∈ chains, draws.length = other.length)
    (hb : ∀ name ∈ leadingNames chains, '[' ∉ name.toList) :
    (∀ t, table chains = .ok t → ∃ ts, tensors chains = .ok ts ∧ TableAgrees chains t ts) ∧
    ∀ ts, tensors chains = .ok ts → (∃ t, table chains = .ok t) ∨
      ∃ e, table chains = .error e ∧ e.isTypeMismatch = true ∧ e.isShapeMismatch = false := by
  refine ⟨fun t ht => tensors_of_table hlen hb ht, fun ts hts => ?_⟩
  rcases table_of_tensors hts with ht | ⟨e, he, hkind⟩
  · exact .inl ht
  · exact .inr ⟨e, he, hkind, Error.not_isShapeMismatch hkind⟩

/-- Two chains of two draws: a number, and a pair of words. -/
def evenRecord : List Draws :=
  let pair (i j : Int) : Value := .array (.ofInts (.ofList [i, j]))
  [[.ofList [("x", .float 0.5), ("v", pair 1 2)], .ofList [("x", .float 1.5), ("v", pair 3 4)]],
   [.ofList [("v", pair 5 6), ("x", .float 2.5)], .ofList [("x", .float 3.5), ("v", pair 7 8)]]]

theorem evenRecord_agrees :
    (∀ draws ∈ evenRecord, ∀ other ∈ evenRecord, draws.length = other.length) ∧
    (∀ name ∈ leadingNames evenRecord, '[' ∉ name.toList) ∧
    ∃ t ts, table evenRecord = .ok t ∧ tensors evenRecord = .ok ts ∧
      TableAgrees evenRecord t ts := by
  have hlen : ∀ draws ∈ evenRecord, ∀ other ∈ evenRecord, draws.length = other.length := by decide
  have hb : ∀ name ∈ leadingNames evenRecord, '[' ∉ name.toList := by decide
  refine ⟨hlen, hb, ?_⟩
  obtain ⟨t, ht⟩ : ∃ t, table evenRecord = .ok t := ⟨_, rfl⟩
  obtain ⟨ts, hts, hagrees⟩ := (formats_agree evenRecord hlen hb).1 t ht
  exact ⟨t, ts, ht, hts, hagrees⟩

end Gibbs.Assembly
