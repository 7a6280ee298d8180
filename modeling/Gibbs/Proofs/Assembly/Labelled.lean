/-
  Labelled arrays hold every draw in its place.

  The array of a variable has the draws and the chains behind the axes of a value; the
  labelled array has the chains first and the draws second.  A cell is converted to the
  common kind of the draws of its chain and then to that of the array.  This is one
  conversion for truth values, words and doubles and for values of one letter, but not for
  integers that outgrow a word.

  * `shape_chainMajor`, `cell_chainMajor`: the axes in front, for arrays of any shape;
  * `TensorHolds`, `tensorHolds`: the array of a variable, for values of any kinds;
  * `axisName_inj`: the names of axes; `Dataset.Consistent`: each of them has one extent;
  * `labelled_exact`: the labelled arrays of a record that can be stacked.
-/
import Gibbs.Assembly.Labelled
import Gibbs.Proofs.Assembly.Agreement
import Mathlib.Data.List.Nodup

namespace Gibbs

/-- A cell of a re-arranged array. -/
theorem Tensor.cell_gather {t : Tensor} {s : Shape} {idx : List Nat} (h : s.admits idx = true)
    (source : List Nat → List Nat) : (t.gather s source).cell idx = t.cell (source idx) :=
  congrArg (Cell.mk t.kind) (Grid.get_ofFn h)

namespace Assembly

/-! ## Axes in front -/

theorem exists_shape {t : Tensor} (h : 2 ≤ t.rank) : ∃ n m, t.shape = valueShape t ++ [n, m] := by
  have hne : t.shape ≠ [] := by
    intro hnil
    simp [Tensor.rank, hnil] at h
  have hne' : t.shape.dropLast ≠ [] := by
    intro hnil
    have hlength := congrArg List.length hnil
    rw [List.length_dropLast, List.length_nil] at hlength
    unfold Tensor.rank at h
    omega
  refine ⟨t.shape.dropLast.getLast hne', t.shape.getLast hne, ?_⟩
  calc t.shape = t.shape.dropLast ++ [t.shape.getLast hne] := (List.dropLast_append_getLast hne).symm
    _ = valueShape t ++ [t.shape.dropLast.getLast hne'] ++ [t.shape.getLast hne] := by
      rw [valueShape, List.dropLast_append_getLast hne']
    _ = _ := by rw [List.append_assoc]; rfl

variable {t : Tensor} {s : Shape} {n m : Nat}

theorem chainMajor_of_shape (h : t.shape = s ++ [n, m]) :
    chainMajor t = t.gather (m :: n :: s) drawMajorPosition := by
  have hreverse : t.shape.reverse = m :: n :: s.reverse := by rw [h]; simp
  simp only [chainMajor, hreverse, List.reverse_reverse]

theorem shape_chainMajor (h : t.shape = s ++ [n, m]) : (chainMajor t).shape = m :: n :: s := by
  rw [chainMajor_of_shape h]; rfl

theorem kind_chainMajor (h : t.shape = s ++ [n, m]) : (chainMajor t).kind = t.kind := by
  rw [chainMajor_of_shape h]; rfl

/-- **The last axis comes first** and the one before it second. -/
theorem cell_chainMajor (h : t.shape = s ++ [n, m]) {c d : Nat} (hc : c < m) (hd : d < n)
    {idx : List Nat} (hidx : s.admits idx = true) :
    (chainMajor t).cell (c :: d :: idx) = t.cell (idx ++ [d, c]) := by
  have hadmits : Shape.admits (m :: n :: s) (c :: d :: idx) = true := by
    simp [Shape.admits, hc, hd, hidx]
  rw [chainMajor_of_shape h, Tensor.cell_gather hadmits]; rfl

/-! ## The array of a variable -/

variable {chains : List Draws} {name : String}

theorem valueOf_eq_ok {st : State} {u : Tensor} (h : valueOf name st = .ok u) :
    ∃ v, st.get? name = some v ∧ v.toTensor = .ok u ∧ arrayAt name st = u := by
  unfold valueOf at h
  cases hv : st.get? name with
  | none => simp only [hv] at h; cases h
  | some v =>
    cases hu : v.toTensor with
    | error e => simp only [hv, hu] at h; cases h
    | ok w =>
      simp only [hv, hu] at h
      cases h
      refine ⟨v, rfl, hu, ?_⟩
      rw [arrayAt_of_get? hv, Value.asArray, hu]; rfl

theorem eq_arrays_of_valuesOf {values : List (List Tensor)} (h : valuesOf chains name = .ok values) :
    values = arrays chains name := by
  have hchain : ∀ draws : Draws, ∀ ts, draws.mapM (valueOf name) = .ok ts →
      ts = draws.map (arrayAt name) := by
    intro draws ts hts
    rw [← List.map_id ts]
    exact map_of_mapM (fun st _ u hu => ((valueOf_eq_ok hu).choose_spec.2.2).symm) hts
  rw [← List.map_id values]
  exact map_of_mapM (fun draws _ ts hts => hchain draws ts hts) h

/-- A variable whose values are found has a value in every state. -/
theorem exists_valueOf {values : List (List Tensor)} (h : valuesOf chains name = .ok values)
    {c d : Nat} {st : State} (hst : stateAt? chains c d = some st) :
    ∃ u, valueOf name st = .ok u := by
  obtain ⟨draws, hdraws, hd⟩ := Option.bind_eq_some_iff.1 hst
  obtain ⟨ts, -, hts⟩ := exists_mem_of_mapM h (List.mem_of_getElem? hdraws)
  obtain ⟨u, -, hu⟩ := exists_mem_of_mapM hts (List.mem_of_getElem? hd)
  exact ⟨u, hu⟩

/-- The common kind of the draws of a chain. -/
def chainKind (chains : List Draws) (name : String) (c : Nat) : Kind :=
  Tensor.commonKind ((chains.getD c []).map (arrayAt name))

/-- Values that widen, or values of one letter: those that may be converted in one step. -/
def Alike (chains : List Draws) (name : String) : Prop :=
  (∀ u ∈ (arrays chains name).flatten, u.kind.isBasic = true) ∨
    ∃ letter, ∀ u ∈ (arrays chains name).flatten, u.kind.letter = letter

/-- The array of all draws of a variable, for values of any kinds. -/
structure TensorHolds (chains : List Draws) (name : String) (t : Tensor) : Prop where
  shape : ∀ draws ∈ chains, t.shape = valueShape t ++ [draws.length, chains.length]
  cell : ∀ c d st, stateAt? chains c d = some st →
    ∃ v u, st.get? name = some v ∧ v.toTensor = .ok u ∧ u.shape = valueShape t ∧
      ∀ idx, u.shape.admits idx = true →
        t.cell (idx ++ [d, c])
          = ((u.cell idx).converted (chainKind chains name c)).converted t.kind ∧
        (Alike chains name → t.cell (idx ++ [d, c]) = (u.cell idx).converted t.kind)

/-- The array of a variable of one shape is a stack of stacks. -/
theorem tensorOf_eq_stacked {values : List (List Tensor)} (hv : valuesOf chains name = .ok values)
    (hne : values.flatten ≠ []) (hs : ∀ u ∈ values.flatten, u.shape = s) :
    tensorOf chains name = stacked values := by
  rw [tensorOf_of_values hv (headD_map hne hs), if_pos (isEmpty_otherShapes.2 hs)]

/-- **Values that are alike** are converted in one step. -/
theorem cell_of_alike {a : Tensor} (hn : name ∈ leadingNames chains)
    (hlen : ∀ draws ∈ chains, ∀ other ∈ chains, draws.length = other.length)
    (hv : valuesOf chains name = .ok (arrays chains name))
    (hs : ∀ u ∈ (arrays chains name).flatten, u.shape = s) (ha : tensorOf chains name = .ok a)
    (halike : Alike chains name) {c d : Nat} {ts : List Tensor} {u : Tensor} {idx : List Nat}
    (hts : (arrays chains name)[c]? = some ts) (hu : ts[d]? = some u)
    (hidx : s.admits idx = true) : a.cell (idx ++ [d, c]) = (u.cell idx).converted a.kind := by
  obtain ⟨n, hn0, hne, -, hlenv⟩ := exists_length hn hlen hv
  have hmem : ∀ ts ∈ arrays chains name, ∀ u ∈ ts, u ∈ (arrays chains name).flatten :=
    fun ts hts u hu => List.mem_flatten.2 ⟨ts, hts, hu⟩
  rcases halike with hb | ⟨letter, hl⟩
  · obtain ⟨t, ht, -, hkind, hcell⟩ := stacked_spec hne hn0 hlenv
      (fun ts hts u hu => hs u (hmem ts hts u hu)) (fun ts hts u hu => hb u (hmem ts hts u hu))
    have hstack := tensorOf_eq_stacked hv (flatten_ne_nil hn hv) hs
    cases (ha.symm.trans hstack).trans ht
    have huflat := hmem ts (List.mem_of_getElem? hts) u (List.mem_of_getElem? hu)
    have hukind : u.kind ∈ (arrays chains name).flatten.map Tensor.kind :=
      List.mem_map_of_mem huflat
    rw [hcell c ts d u idx hts hu hidx, hkind]
    exact (Cell.convert_eq_widened (c := u.cell idx) (hb u huflat) (Kind.isBasic_result _)
      (Kind.join_result (hb u huflat) hukind)).symm
  · obtain ⟨t, ht, -, hcells⟩ := tensorOf_of_shape hv hne hn0 hlenv hs
    cases ha.symm.trans ht
    exact (hcells letter hl).2 c ts d u idx hts hu hidx

/-- **The array of a variable** holds all draws: a cell is converted to the common kind of its
    chain and then to that of the array. -/
theorem tensorHolds {a : Tensor} (hn : name ∈ leadingNames chains)
    (hlen : ∀ draws ∈ chains, ∀ other ∈ chains, draws.length = other.length)
    (ha : tensorOf chains name = .ok a) : TensorHolds chains name a := by
  obtain ⟨values, s, hv, hs⟩ := shape_of_tensorOf ha
  obtain rfl := eq_arrays_of_valuesOf hv
  obtain ⟨n, hn0, hne, hlenc, hlenv⟩ := exists_length hn hlen hv
  obtain ⟨us, t, ht, hby⟩ := stacked_by hne hn0 hlenv
    fun ts hts u hu => hs u (List.mem_flatten.2 ⟨ts, hts, hu⟩)
  have hstack := tensorOf_eq_stacked hv (flatten_ne_nil hn hv) hs
  cases (ha.symm.trans hstack).trans ht
  have hvalue : valueShape a = s := valueShape_of_shape hby.shape
  constructor
  · intro draws hdraws
    rw [hvalue, hby.shape, hlenc draws hdraws, arrays, List.length_map]
  · intro c d st hst
    obtain ⟨draws, hdraws, hd⟩ := Option.bind_eq_some_iff.1 hst
    have hts : (arrays chains name)[c]? = some (draws.map (arrayAt name)) := by
      rw [arrays, List.getElem?_map, hdraws]; rfl
    have hu : (draws.map (arrayAt name))[d]? = some (arrayAt name st) := by
      rw [List.getElem?_map, hd]; rfl
    have hflat : arrayAt name st ∈ (arrays chains name).flatten :=
      List.mem_flatten.2 ⟨_, List.mem_of_getElem? hts, List.mem_of_getElem? hu⟩
    obtain ⟨u, hu'⟩ := exists_valueOf hv hst
    obtain ⟨v, hget, htensor, harray⟩ := valueOf_eq_ok hu'
    rw [harray] at hu hflat
    refine ⟨v, u, hget, htensor, (hs u hflat).trans hvalue.symm, fun idx hidx => ⟨?_, ?_⟩⟩
    · rw [hs u hflat] at hidx
      obtain ⟨w, hw, hchain⟩ := hby.chain c _ hts
      have hkind : w.kind = chainKind chains name c := by
        rw [hchain.kind, chainKind, List.getD_eq_getElem?_getD, hdraws]; rfl
      have hlt : d < n := by
        rw [← hlenc draws (List.mem_of_getElem? hdraws)]
        exact (List.getElem?_eq_some_iff.1 hd).1
      calc a.cell (idx ++ [d, c])
          = a.cell (Tensor.last c (idx ++ [d])) := by rw [Tensor.last, List.append_assoc]; rfl
        _ = (w.cell (Tensor.last d idx)).converted a.kind :=
          hby.outer.cell c w _ hw (Shape.admits_append hlt hidx)
        _ = ((u.cell idx).converted (chainKind chains name c)).converted a.kind := by
          rw [hchain.cell d u idx hu hidx, hkind]
    · intro halike
      rw [hs u hflat] at hidx
      exact cell_of_alike hn hlen hv hs ha halike hts hu hidx

/-! ## Names of axes -/

/-- The name of an axis of the labelled array of a variable. -/
def axisName (name : String) : Nat → String
  | 0 => "chain"
  | 1 => "draw"
  | i + 2 => name ++ "_dim_" ++ toString i

theorem toList_axisName (name : String) (i : Nat) :
    (axisName name (i + 2)).toList.reverse
      = (Nat.toDigits 10 i).reverse ++ '_' :: ("_dim".toList.reverse ++ name.toList.reverse) := by
  simp [axisName]

theorem not_mem_reverse_toDigits (i : Nat) : '_' ∉ (Nat.toDigits 10 i).reverse := by
  rw [List.mem_reverse]; exact not_mem_toDigits (by decide) i

theorem axisName_ne (text : String) (h : '_' ∉ text.toList) (name : String) (i : Nat) :
    axisName name (i + 2) ≠ text := by
  rintro rfl
  refine h (List.mem_reverse.1 ?_)
  rw [toList_axisName]
  exact List.mem_append_right _ List.mem_cons_self

/-- **The name of an axis** tells its place, and for an axis of values the variable. -/
theorem axisName_inj {a b : String} : ∀ {i j : Nat}, axisName a i = axisName b j →
    i = j ∧ (2 ≤ i → a = b)
  | 0, 0, _ => ⟨rfl, fun h => absurd h (by decide)⟩
  | 0, 1, h => absurd h (by decide : "chain" ≠ "draw")
  | 1, 0, h => absurd h (by decide : "draw" ≠ "chain")
  | 1, 1, _ => ⟨rfl, fun h => absurd h (by decide)⟩
  | 0, j + 2, h => absurd h.symm (axisName_ne "chain" (by decide) b j)
  | 1, j + 2, h => absurd h.symm (axisName_ne "draw" (by decide) b j)
  | i + 2, 0, h => absurd h (axisName_ne "chain" (by decide) a i)
  | i + 2, 1, h => absurd h (axisName_ne "draw" (by decide) a i)
  | i + 2, j + 2, h => by
    have hlist := congrArg (fun text : String => text.toList.reverse) h
    simp only [toList_axisName] at hlist
    obtain ⟨hdigits, hrest⟩ := append_cons_inj (not_mem_reverse_toDigits i)
      (not_mem_reverse_toDigits j) hlist
    have hnumber := congrArg (fun digits => Nat.ofDigitChars 10 digits 0)
      (List.reverse_inj.1 hdigits)
    simp only [Nat.ofDigitChars_ten_toDigits] at hnumber
    have hname := List.reverse_inj.1 (List.append_cancel_left hrest)
    exact ⟨by rw [hnumber], fun _ => String.toList_inj.1 hname⟩

theorem dims_labelled (name : String) (h : t.shape = s ++ [n, m]) :
    (labelled name t).dims = (List.range (s.length + 2)).map (axisName name) := by
  have hrank : t.rank - 2 = s.length := by rw [Tensor.rank, h]; simp
  rw [List.range_succ_eq_map, List.range_succ_eq_map]
  simp [labelled, valueDims, hrank, axisName, Function.comp_def]

/-- A dataset whose axes fit together: every axis of an array has a name of its own, axes of
    one name have one extent, and no variable has the name of an axis. -/
structure Dataset.Consistent (ds : Dataset) : Prop where
  rank : ∀ p ∈ ds.vars, p.2.dims.length = p.2.value.rank
  nodup : ∀ p ∈ ds.vars, p.2.dims.Nodup
  extent : ∀ p ∈ ds.vars, ∀ q ∈ ds.vars, ∀ (i j : Nat) (axis : String),
    p.2.dims[i]? = some axis → q.2.dims[j]? = some axis →
      p.2.value.shape[i]? = q.2.value.shape[j]?
  apart : ∀ p ∈ ds.vars, ∀ q ∈ ds.vars, p.1 ∉ q.2.dims

theorem getElem?_map_axisName {k i : Nat} {axis : String}
    (h : ((List.range k).map (axisName name))[i]? = some axis) : axis = axisName name i := by
  rw [List.getElem?_map, Option.map_eq_some_iff] at h
  obtain ⟨j, hj, rfl⟩ := h
  obtain ⟨_, rfl⟩ := List.getElem?_eq_some_iff.1 hj
  rw [List.getElem_range]

/-- The names of variables and of axes do not mix. -/
def NamesApart (names : List String) : Prop :=
  ∀ name ∈ names, name ≠ "chain" ∧ name ≠ "draw" ∧
    ∀ other ∈ names, ∀ i : Nat, name ≠ other ++ "_dim_" ++ toString i

theorem NamesApart.ne_axisName {names : List String} (h : NamesApart names) {other : String}
    (hn : name ∈ names) (ho : other ∈ names) : ∀ i, name ≠ axisName other i
  | 0 => (h name hn).1
  | 1 => (h name hn).2.1
  | i + 2 => (h name hn).2.2 other ho i

/-- Names without underscores are no names of axes of values. -/
theorem namesApart_of_forall {names : List String}
    (h : ∀ name ∈ names, '_' ∉ name.toList ∧ name ≠ "chain" ∧ name ≠ "draw") :
    NamesApart names := by
  intro name hn
  obtain ⟨hbar, hchain, hdraw⟩ := h name hn
  exact ⟨hchain, hdraw, fun other _ i => (axisName_ne name hbar other i).symm⟩

/-- Labelled arrays with common draws and chains fit together. -/
theorem consistent_of_shapes {ts : List (String × Tensor)} {coords : List (String × Nat)}
    (hnodup : (ts.map Prod.fst).Nodup) (hapart : NamesApart (ts.map Prod.fst))
    (hshape : ∀ p ∈ ts, p.2.shape = valueShape p.2 ++ [n, m]) :
    Dataset.Consistent ⟨ts.map fun p => (p.1, labelled p.1 p.2), coords⟩ := by
  have hdims := fun p hp => dims_labelled p.1 (hshape p hp)
  constructor
  · intro p hp
    obtain ⟨q, hq, rfl⟩ := List.mem_map.1 hp
    change (labelled q.1 q.2).dims.length = (chainMajor q.2).shape.length
    rw [hdims q hq, shape_chainMajor (hshape q hq)]
    simp
  · intro p hp
    obtain ⟨q, hq, rfl⟩ := List.mem_map.1 hp
    change (labelled q.1 q.2).dims.Nodup
    rw [hdims q hq]
    exact List.Nodup.map (fun i j h => (axisName_inj h).1) List.nodup_range
  · intro p hp p' hp' i j axis hi hj
    obtain ⟨q, hq, rfl⟩ := List.mem_map.1 hp
    obtain ⟨q', hq', rfl⟩ := List.mem_map.1 hp'
    change (labelled q.1 q.2).dims[i]? = some axis at hi
    change (labelled q'.1 q'.2).dims[j]? = some axis at hj
    change (chainMajor q.2).shape[i]? = (chainMajor q'.2).shape[j]?
    rw [hdims q hq] at hi
    rw [hdims q' hq'] at hj
    rw [getElem?_map_axisName hi] at hj
    obtain ⟨rfl, hvalue⟩ := axisName_inj (getElem?_map_axisName hj)
    rw [shape_chainMajor (hshape q hq), shape_chainMajor (hshape q' hq')]
    -- the first two axes are common, the others belong to one variable
    match i, hvalue with
    | 0, _ => rfl
    | 1, _ => rfl
    | i + 2, hvalue =>
      have hsame : q = q' := List.inj_on_of_nodup_map hnodup hq hq' (hvalue (by omega))
      rw [hsame]
  · intro p hp p' hp' hmem
    obtain ⟨q, hq, rfl⟩ := List.mem_map.1 hp
    obtain ⟨q', hq', rfl⟩ := List.mem_map.1 hp'
    change q.1 ∈ (labelled q'.1 q'.2).dims at hmem
    rw [hdims q' hq'] at hmem
    obtain ⟨i, -, hi⟩ := List.mem_map.1 hmem
    exact hapart.ne_axisName (List.mem_map_of_mem hq) (List.mem_map_of_mem hq') i hi.symm

/-! ## Labelled records -/

/-- The labelled array of all draws of a variable. -/
structure LabelledHolds (chains : List Draws) (name : String) (t : Tensor) (x : Labelled) :
    Prop where
  dims : x.dims = "chain" :: "draw" ::
    (List.range (valueShape t).length).map fun i => name ++ "_dim_" ++ toString i
  shape : ∀ draws ∈ chains, x.value.shape = chains.length :: draws.length :: valueShape t
  kind : x.value.kind = t.kind
  cell : ∀ c d st, stateAt? chains c d = some st →
    ∃ v u, st.get? name = some v ∧ v.toTensor = .ok u ∧ u.shape = valueShape t ∧
      ∀ idx, u.shape.admits idx = true →
        x.value.cell (c :: d :: idx)
          = ((u.cell idx).converted (chainKind chains name c)).converted t.kind ∧
        (Alike chains name → x.value.cell (c :: d :: idx) = (u.cell idx).converted t.kind)

/-- **The labelled array of a variable** holds all draws. -/
theorem TensorHolds.labelled (h : TensorHolds chains name t) (hne : chains ≠ []) :
    LabelledHolds chains name t (labelled name t) := by
  obtain ⟨draws, hdraws⟩ := List.exists_mem_of_ne_nil chains hne
  have hshape := h.shape draws hdraws
  have hrank : t.rank - 2 = (valueShape t).length := by
    rw [Tensor.rank, hshape]; simp
  constructor
  · change "chain" :: "draw" :: valueDims name (t.rank - 2) = _
    rw [hrank]; rfl
  · exact fun draws hdraws => shape_chainMajor (h.shape draws hdraws)
  · exact kind_chainMajor hshape
  · intro c d st hst
    obtain ⟨draws, hdraws, hd⟩ := Option.bind_eq_some_iff.1 hst
    obtain ⟨v, u, hv, hu, hushape, hcell⟩ := h.cell c d st hst
    refine ⟨v, u, hv, hu, hushape, fun idx hidx => ?_⟩
    have hplace : (chainMajor t).cell (c :: d :: idx) = t.cell (idx ++ [d, c]) := by
      refine cell_chainMajor (h.shape draws (List.mem_of_getElem? hdraws))
        (List.getElem?_eq_some_iff.1 hdraws).1 (List.getElem?_eq_some_iff.1 hd).1 ?_
      rw [← hushape]; exact hidx
    change (chainMajor t).cell _ = _ ∧ (_ → (chainMajor t).cell _ = _)
    rw [hplace]; exact hcell idx hidx

/-- The arrays of a record have common axes of draws and of chains. -/
theorem exists_common {ts : List (String × Tensor)} (hlen : ∀ draws ∈ chains, ∀ other ∈ chains,
    draws.length = other.length) (hnil : chains = [] → ts = [])
    (h : ∀ p ∈ ts, TensorHolds chains p.1 p.2) :
    ∃ n, (∀ draws ∈ chains, draws.length = n) ∧
      ∀ p ∈ ts, p.2.shape = valueShape p.2 ++ [n, chains.length] := by
  cases chains with
  | nil => exact ⟨0, nofun, by rw [hnil rfl]; exact nofun⟩
  | cons first rest =>
    exact ⟨first.length, fun draws hdraws => hlen draws hdraws first List.mem_cons_self,
      fun p hp => (h p hp).shape first List.mem_cons_self⟩

theorem extents_of_shapes {ts : List (String × Tensor)} (hne : ts ≠ [])
    (hshape : ∀ p ∈ ts, p.2.shape = valueShape p.2 ++ [n, m]) :
    extents ts = [("chain", m), ("draw", n)] := by
  cases ts with
  | nil => exact absurd rfl hne
  | cons p ts =>
    have hreverse : p.2.shape.reverse = m :: n :: (valueShape p.2).reverse := by
      rw [hshape p List.mem_cons_self]; simp
    simp only [extents, hreverse]

theorem namesCommonAxis_eq_false {ts : List (String × Tensor)}
    (h : NamesApart (ts.map Prod.fst)) : namesCommonAxis ts = false := by
  rw [namesCommonAxis, List.any_eq_false]
  intro p hp
  obtain ⟨hchain, hdraw, -⟩ := h p.1 (List.mem_map_of_mem hp)
  simp [hchain, hdraw]

/-- **Every draw is in its place.**  An array with at least two axes has its last axis put first
    and the one before it second.  The labelled arrays of a record that can be stacked fit
    together and have coordinates for all chains and draws; the cells of a draw are converted
    to the common kind of its chain and then to the kind of the array, and in one step for
    values that are alike. -/
theorem labelled_exact (chains : List Draws) {ts : List (String × Tensor)}
    (hts : tensors chains = .ok ts) (hnames : NamesApart (leadingNames chains)) :
    (∀ t : Tensor, 2 ≤ t.rank → ∃ n m, t.shape = valueShape t ++ [n, m] ∧
      (chainMajor t).shape = m :: n :: valueShape t ∧ (chainMajor t).kind = t.kind ∧
      ∀ c d idx, c < m → d < n → (valueShape t).admits idx = true →
        (chainMajor t).cell (c :: d :: idx) = t.cell (idx ++ [d, c])) ∧
    ∃ ds, Dataset.ofTensors ts = .ok ds ∧ ds.Consistent ∧
      ds.vars.map Prod.fst = leadingNames chains ∧
      ∀ name x, (name, x) ∈ ds.vars →
        (∃ t, (name, t) ∈ ts ∧ LabelledHolds chains name t x) ∧
        ∀ draws ∈ chains, ds.coords = [("chain", chains.length), ("draw", draws.length)] := by
  refine ⟨fun t ht => ?_, ?_⟩
  · obtain ⟨n, m, h⟩ := exists_shape ht
    exact ⟨n, m, h, shape_chainMajor h, kind_chainMajor h,
      fun c d idx hc hd hidx => cell_chainMajor h hc hd hidx⟩
  · have hlen := lengths_of_tensors hts
    rw [tensors_of_lengths hlen] at hts
    have hfst := map_fst_of_tensors hts
    have hholds : ∀ p ∈ ts, TensorHolds chains p.1 p.2 := by
      intro p hp
      obtain ⟨hn, ha⟩ := tensorOf_of_mem hts hp
      exact tensorHolds hn hlen ha
    have hnil : chains = [] → ts = [] := by
      rintro rfl
      exact List.map_eq_nil_iff.1 hfst
    obtain ⟨n, hn, hshape⟩ := exists_common hlen hnil hholds
    have hofTensors : Dataset.ofTensors ts
        = .ok ⟨ts.map fun p => (p.1, labelled p.1 p.2), extents ts⟩ := by
      rw [Dataset.ofTensors, namesCommonAxis_eq_false (hfst ▸ hnames)]; rfl
    refine ⟨_, hofTensors, ?_, ?_, ?_⟩
    · exact consistent_of_shapes (hfst ▸ nodup_leadingNames chains) (hfst ▸ hnames) hshape
    · rw [← hfst, List.map_map]; rfl
    · intro name x hx
      obtain ⟨p, hp, heq⟩ := List.mem_map.1 hx
      cases heq
      have hne : ts ≠ [] := List.ne_nil_of_mem hp
      refine ⟨⟨p.2, hp, (hholds p hp).labelled fun h => hne (hnil h)⟩, fun draws hdraws => ?_⟩
      rw [hn draws hdraws]; exact extents_of_shapes hne hshape

theorem evenRecord_labelled : NamesApart (leadingNames evenRecord) ∧
    ∃ ts ds, tensors evenRecord = .ok ts ∧ Dataset.ofTensors ts = .ok ds ∧ ds.Consistent ∧
      ds.vars.map Prod.fst = ["x", "v"] ∧ ds.coords = [("chain", 2), ("draw", 2)] ∧
      ∀ name x, (name, x) ∈ ds.vars →
        ∃ t, (name, t) ∈ ts ∧ LabelledHolds evenRecord name t x := by
  have hnames : NamesApart (leadingNames evenRecord) := namesApart_of_forall (by decide)
  obtain ⟨t, ht⟩ : ∃ t, table evenRecord = .ok t := ⟨_, rfl⟩
  obtain ⟨ts, hts, -⟩ := tensors_of_table (by decide) (by decide) ht
  obtain ⟨-, ds, hds, hconsistent, hvars, hall⟩ := labelled_exact evenRecord hts hnames
  obtain ⟨x, hx⟩ : ∃ x, ("x", x) ∈ ds.vars := by
    have hmem : "x" ∈ ds.vars.map Prod.fst := by rw [hvars]; decide
    obtain ⟨p, hp, hfst⟩ := List.mem_map.1 hmem
    exact ⟨p.2, hfst ▸ hp⟩
  exact ⟨hnames, ts, ds, hts, hds, hconsistent, hvars,
    (hall "x" x hx).2 _ List.mem_cons_self, fun name x hx => (hall name x hx).1⟩

/-- Two chains of two draws of an integer, one of which outgrows the words. -/
def outgrownRecord : List Draws :=
  [[.ofList [("x", .int 9007199254740993)], .ofList [("x", .float 0.5)]],
   [.ofList [("x", .int 1000000000000000000000000000000)], .ofList [("x", .int 3)]]]

/-- **One conversion would not do:** an integer that stands beside a double in its chain and
    beside an integer without bounds in the array arrives there as a double. -/
theorem outgrownRecord_not_direct :
    ∃ ts ds x v u, tensors outgrownRecord = .ok ts ∧ outgrownRecord.flatten ≠ [] ∧
      NamesApart (leadingNames outgrownRecord) ∧ Dataset.ofTensors ts = .ok ds ∧
      ("x", x) ∈ ds.vars ∧ (stateAt? outgrownRecord 0 0).bind (·.get? "x") = some v ∧
      v.toTensor = .ok u ∧ x.value.cell [0, 0] ≠ (u.cell []).converted x.value.kind := by
  have hnames : NamesApart (leadingNames outgrownRecord) := namesApart_of_forall (by decide)
  obtain ⟨a, ha, hkind⟩ : ∃ a, stacked (arrays outgrownRecord "x") = .ok a ∧ a.kind = .object :=
    ⟨_, rfl, rfl⟩
  have hlen : ∀ draws ∈ outgrownRecord, ∀ other ∈ outgrownRecord,
      draws.length = other.length := by decide
  have hvalues : valuesOf outgrownRecord "x" = .ok (arrays outgrownRecord "x") := rfl
  have hshapes : ∀ u ∈ (arrays outgrownRecord "x").flatten, u.shape = [] := by decide
  have htensor : tensorOf outgrownRecord "x" = .ok a :=
    (tensorOf_eq_stacked hvalues (by decide) hshapes).trans ha
  have hts : tensors outgrownRecord = .ok [("x", a)] := by
    rw [tensors_of_lengths hlen]
    exact bind_eq_ok.2 ⟨("x", a), bind_eq_ok.2 ⟨a, htensor, rfl⟩, rfl⟩
  have hholds := (tensorHolds (by decide) hlen htensor).labelled (by decide)
  obtain ⟨v, u, hv, hu, -, hcell⟩ := hholds.cell 0 0 _ rfl
  refine ⟨_, _, labelled "x" a, v, u, hts, by decide, hnames, rfl, List.mem_cons_self, hv, hu, ?_⟩
  cases hv
  cases hu
  rw [(hcell [] rfl).1, hholds.kind, hkind]
  intro h
  cases congrArg Cell.toPlain h

end Assembly

end Gibbs
