/-
  Stacking is exact: the array of a variable, cell by cell.

  The draws of a record can be stacked unless they differ in number between chains, a state
  lacks a variable of the first one, or the values of such a variable differ in extents.  The
  arrays of a record that can be stacked have, after the axes of a value, one axis for the
  draws and one for the chains.

  * `Mismatched`: the differences that keep a record from being stacked;
  * `HoldsDraws`: what the array of a variable holds;
  * `stacked_spec`: a stack of stacks, with cells that widen twice;
  * `tensors_exact`: the arrays of all variables.
-/
import Gibbs.Proofs.Assembly.Variable

namespace Gibbs.Assembly

/-! ## Stacks of stacks -/

/-- **A stack of stacks:** the coordinates of a value, then its place in its chain, then the
    place of the chain. -/
theorem stacked_spec {values : List (List Tensor)} {s : Shape} {n : Nat} (hne : values ≠ [])
    (hn : n ≠ 0) (hlen : ∀ ts ∈ values, ts.length = n)
    (hs : ∀ ts ∈ values, ∀ t ∈ ts, t.shape = s)
    (hb : ∀ ts ∈ values, ∀ t ∈ ts, t.kind.isBasic = true) :
    ∃ t, stacked values = .ok t ∧ t.shape = s ++ [n, values.length] ∧
      t.kind = Kind.result (values.flatten.map Tensor.kind) ∧
      ∀ c ts d u idx, values[c]? = some ts → ts[d]? = some u → s.admits idx = true →
        t.cell (idx ++ [d, c]) = (u.cell idx).widened t.kind := by
  have hnil : ∀ ts ∈ values, ts ≠ [] := by
    rintro ts hts rfl
    exact hn (hlen [] hts).symm
  obtain ⟨us, t, ht, hby⟩ := stacked_by hne hn hlen hs
  have hkinds : us.map Tensor.kind = (values.map (List.map Tensor.kind)).map Kind.result := by
    rw [hby.kinds, List.map_map]
    exact List.map_congr_left fun ts hts => Tensor.commonKind_eq (hnil ts hts) (hb ts hts)
  have hus : ∀ u ∈ us, u.kind.isBasic = true := by
    intro u hu
    obtain ⟨ks, -, hks⟩ := List.mem_map.1 (hkinds ▸ List.mem_map_of_mem hu)
    rw [← hks]; exact Kind.isBasic_result ks
  have hne' : us ≠ [] := by
    rintro rfl
    exact hne (List.length_eq_zero_iff.1 hby.length.symm)
  have hstack := hby.outer.isStack hne' hus
  refine ⟨t, ht, hby.shape, ?_, ?_⟩
  · rw [hstack.kind, hkinds, Kind.result_map_result, List.map_flatten]
  · intro c ts d v idx hts hv hidx
    obtain ⟨u, hu, hchain⟩ := hby.chain c ts hts
    have hmem : ts ∈ values := List.mem_of_getElem? hts
    refine (hchain.isStack (hnil ts hmem) (hb ts hmem)).cell_cell ?_ (hb ts hmem) hus hu hv hidx
    rw [hlen ts hmem]; exact hstack

/-! ## Records that can be stacked -/

/-- The differences that keep a record from being stacked. -/
inductive Mismatched (chains : List Draws) : Prop
  /-- two chains with different numbers of draws -/
  | lengths {draws other : Draws} (h : draws ∈ chains) (ho : other ∈ chains)
      (hne : draws.length ≠ other.length)
  /-- a variable of the first state that another state lacks -/
  | lacking {name : String} {s : State} (hn : name ∈ leadingNames chains)
      (hs : s ∈ chains.flatten) (h : name ∉ s.keys)
  /-- two values of such a variable with different extents -/
  | extents {name : String} {v w : Value} (hn : name ∈ leadingNames chains)
      (hv : v ∈ recorded chains name) (hw : w ∈ recorded chains name) (hne : v.dims ≠ w.dims)

/-- The array of all draws of a variable. -/
structure HoldsDraws (chains : List Draws) (name : String) (t : Tensor) : Prop where
  shape : ∀ v ∈ recorded chains name, ∀ draws ∈ chains,
    t.shape = v.dims ++ [draws.length, chains.length]
  kind : t.kind = Kind.result ((recorded chains name).map Value.kind)
  cell : ∀ c d s, stateAt? chains c d = some s → ∃ v, s.get? name = some v ∧
    ∀ idx, v.dims.admits idx = true → t.cell (idx ++ [d, c]) = (v.component idx).widened t.kind

theorem equalLengths_iff {chains : List Draws} : equalLengths chains = true ↔
    ∀ draws ∈ chains, ∀ other ∈ chains, draws.length = other.length := by
  unfold equalLengths
  cases chains with
  | nil => simp
  | cons first rest =>
    simp only [List.map_cons, List.all_map, List.all_eq_true, Function.comp_apply, beq_iff_eq]
    constructor
    · intro h
      have hfirst : ∀ draws ∈ first :: rest, draws.length = first.length := by
        intro draws hd
        rcases List.mem_cons.1 hd with rfl | hd
        · rfl
        · exact h draws hd
      intro draws hd other ho
      rw [hfirst draws hd, hfirst other ho]
    · intro h draws hd
      exact h draws (List.mem_cons_of_mem _ hd) first List.mem_cons_self

variable {chains : List Draws} {name : String}

theorem tensorOf_of_lacking (h : isRecordable chains = true) (he : ¬ Everywhere chains name) :
    tensorOf chains name = .error (.variableMissing name) := by
  rw [tensorOf, valuesOf_error h he]; rfl

/-- The computation of the array of a variable that no state lacks. -/
theorem tensorOf_eq (h : isRecordable chains = true) (he : Everywhere chains name)
    {expected : Shape} (hexpected : ((recorded chains name).map Value.dims).headD [] = expected) :
    tensorOf chains name
      = if (otherShapes expected (arrays chains name)).isEmpty then stacked (arrays chains name)
        else .error (.stackedShapes name expected (otherShapes expected (arrays chains name))) := by
  rw [← map_shape_arrays h he] at hexpected
  exact tensorOf_of_values (valuesOf_eq h he) hexpected

theorem tensorOf_of_extents (h : isRecordable chains = true) (he : Everywhere chains name)
    {v w : Value} (hv : v ∈ recorded chains name) (hw : w ∈ recorded chains name)
    (hne : v.dims ≠ w.dims) :
    ∃ expected others, tensorOf chains name = .error (.stackedShapes name expected others) := by
  have htensor := tensorOf_eq h he rfl
  generalize ((recorded chains name).map Value.dims).headD [] = expected at htensor
  have hothers : ¬ (otherShapes expected (arrays chains name)).isEmpty = true := by
    intro hempty
    have hall : ∀ u ∈ recorded chains name, u.dims = expected := by
      intro u hu
      obtain ⟨t, ht, htu⟩ := List.mem_map.1 (map_shape_arrays h he ▸ List.mem_map_of_mem hu)
      rw [← htu]; exact isEmpty_otherShapes.1 hempty t ht
    exact hne ((hall v hv).trans (hall w hw).symm)
  rw [if_neg hothers] at htensor
  exact ⟨expected, _, htensor⟩

/-- **The array of a variable** whose values have the same extents everywhere. -/
theorem tensorOf_spec (h : isRecordable chains = true) (hn : name ∈ leadingNames chains)
    (he : Everywhere chains name)
    (hlen : ∀ draws ∈ chains, ∀ other ∈ chains, draws.length = other.length)
    (hdims : ∀ v ∈ recorded chains name, ∀ w ∈ recorded chains name, v.dims = w.dims) :
    ∃ t, tensorOf chains name = .ok t ∧ HoldsDraws chains name t := by
  -- the state of the first draw gives the extents of a value and of the axis of draws
  obtain ⟨s₀, hs₀, hn₀⟩ := mem_leadingNames hn
  obtain ⟨draws₀, hdraws₀, hmem₀⟩ := List.mem_flatten.1 hs₀
  obtain ⟨v₀, hv₀⟩ := exists_get? hn₀
  have hrec₀ : v₀ ∈ recorded chains name := mem_recorded_iff.2 ⟨s₀, hs₀, hv₀⟩
  have hall : ∀ t ∈ (arrays chains name).flatten, t.shape = v₀.dims ∧ t.kind.isBasic = true := by
    intro t ht
    obtain ⟨v, hv, hshape, hbasic⟩ := exists_of_mem_arrays h he ht
    exact ⟨hshape.trans (hdims v hv v₀ hrec₀), hbasic⟩
  have hflat : ∀ ts ∈ arrays chains name, ∀ t ∈ ts, t ∈ (arrays chains name).flatten :=
    fun ts hts t ht => List.mem_flatten.2 ⟨ts, hts, ht⟩
  have hexpected : ((recorded chains name).map Value.dims).headD [] = v₀.dims :=
    headD_map (List.ne_nil_of_mem hrec₀) fun v hv => hdims v hv v₀ hrec₀
  have hlengths : ∀ ts ∈ arrays chains name, ts.length = draws₀.length := by
    intro ts hts
    obtain ⟨draws, hdraws, rfl⟩ := List.mem_map.1 hts
    rw [List.length_map]; exact hlen draws hdraws draws₀ hdraws₀
  obtain ⟨t, ht, hshape, hkind, hcell⟩ := stacked_spec
    (by simpa [arrays] using List.ne_nil_of_mem hdraws₀)
    (by simpa using List.ne_nil_of_mem hmem₀) hlengths
    (fun ts hts u hu => (hall u (hflat ts hts u hu)).1)
    (fun ts hts u hu => (hall u (hflat ts hts u hu)).2)
  refine ⟨t, ?_, ⟨?_, ?_, ?_⟩⟩
  · rw [tensorOf_eq h he hexpected, if_pos (isEmpty_otherShapes.2 fun u hu => (hall u hu).1)]
    exact ht
  · intro v hv draws hdraws
    rw [hshape, hdims v hv v₀ hrec₀, hlen draws hdraws draws₀ hdraws₀, arrays, List.length_map]
  · rw [hkind, map_kind_arrays h he]
  · intro c d s hs
    obtain ⟨v, ts, hv, hvrec, hts, hd⟩ := array_of_stateAt? he hs
    refine ⟨v, hv, fun idx hidx => ?_⟩
    have hidx' : v₀.dims.admits idx = true := by rw [← hdims v hvrec v₀ hrec₀]; exact hidx
    rw [hcell c ts d v.asArray idx hts hd hidx',
      (Value.asArray_spec (isRecordable_of_mem h hvrec)).cell idx hidx]

theorem tensors_of_lengths (hlen : ∀ draws ∈ chains, ∀ other ∈ chains,
    draws.length = other.length) : tensors chains
      = (leadingNames chains).mapM fun name => do return (name, ← tensorOf chains name) := by
  rw [tensors, equalLengths_iff.2 hlen, variableNames_eq]; rfl

theorem lengths_of_tensors {ts : List (String × Tensor)} (h : tensors chains = .ok ts) :
    ∀ draws ∈ chains, ∀ other ∈ chains, draws.length = other.length := by
  refine equalLengths_iff.1 (Classical.byContradiction fun hne => ?_)
  rw [tensors, Bool.eq_false_iff.2 hne] at h; cases h

/-- The arrays of several variables, each with its name. -/
theorem map_fst_of_tensors {names : List String} {ts : List (String × Tensor)}
    (h : (names.mapM fun name => do return (name, ← tensorOf chains name)) = .ok ts) :
    ts.map Prod.fst = names := by
  rw [map_of_mapM (g := Prod.fst) (h := id) ?_ h, List.map_id]
  intro name _ p hp
  obtain ⟨t, -, hp⟩ := bind_eq_ok.1 hp
  cases hp; rfl

theorem tensorOf_of_mem {names : List String} {ts : List (String × Tensor)}
    (h : (names.mapM fun name => do return (name, ← tensorOf chains name)) = .ok ts)
    {p : String × Tensor} (hp : p ∈ ts) : p.1 ∈ names ∧ tensorOf chains p.1 = .ok p.2 := by
  obtain ⟨name, hn, hname⟩ := exists_of_mem_mapM h hp
  obtain ⟨t, ht, hname⟩ := bind_eq_ok.1 hname
  cases hname
  exact ⟨hn, ht⟩

theorem isShapeMismatch_of_tensorOf (h : isRecordable chains = true)
    (hn : name ∈ leadingNames chains)
    (hlen : ∀ draws ∈ chains, ∀ other ∈ chains, draws.length = other.length) {e : Error}
    (he : tensorOf chains name = .error e) : e.isShapeMismatch = true := by
  by_cases hev : Everywhere chains name
  · by_cases hdims : ∀ v ∈ recorded chains name, ∀ w ∈ recorded chains name, v.dims = w.dims
    · obtain ⟨t, ht, -⟩ := tensorOf_spec h hn hev hlen hdims
      cases ht.symm.trans he
    · simp only [Classical.not_forall] at hdims
      obtain ⟨v, hv, w, hw, hne⟩ := hdims
      obtain ⟨expected, others, hshapes⟩ := tensorOf_of_extents h hev hv hw hne
      cases hshapes.symm.trans he; rfl
  · cases (tensorOf_of_lacking h hev).symm.trans he; rfl

theorem tensors_of_mismatched (h : isRecordable chains = true) (hm : Mismatched chains) :
    ∃ e, tensors chains = .error e ∧ e.isShapeMismatch = true := by
  by_cases hlen : ∀ draws ∈ chains, ∀ other ∈ chains, draws.length = other.length
  · obtain ⟨name, hn, e, hfails⟩ : ∃ name ∈ leadingNames chains, ∃ e,
        tensorOf chains name = .error e := by
      cases hm with
      | lengths hd ho hne => exact absurd (hlen _ hd _ ho) hne
      | lacking hn hs hl => exact ⟨_, hn, _, tensorOf_of_lacking h fun he => hl (he _ hs)⟩
      | @extents name v w hn hv hw hne =>
        by_cases hev : Everywhere chains name
        · obtain ⟨expected, others, hshapes⟩ := tensorOf_of_extents h hev hv hw hne
          exact ⟨name, hn, _, hshapes⟩
        · exact ⟨name, hn, _, tensorOf_of_lacking h hev⟩
    rw [tensors_of_lengths hlen]
    cases hts : (leadingNames chains).mapM fun name => do return (name, ← tensorOf chains name) with
    | ok ts =>
      obtain ⟨p, -, hp⟩ := exists_mem_of_mapM hts hn
      obtain ⟨t, ht, -⟩ := bind_eq_ok.1 hp
      cases hfails.symm.trans ht
    | error e' =>
      obtain ⟨other, ho, he⟩ := mapM_eq_error hts
      rcases bind_eq_error.1 he with he | ⟨t, -, he⟩
      · exact ⟨e', rfl, isShapeMismatch_of_tensorOf h ho hlen he⟩
      · cases he
  · refine ⟨.unequalLengths (chains.map List.length), ?_, rfl⟩
    rw [tensors, Bool.eq_false_iff.2 fun he => hlen (equalLengths_iff.1 he)]; rfl

theorem tensors_of_matched (h : isRecordable chains = true) (hm : ¬ Mismatched chains) :
    ∃ ts, tensors chains = .ok ts ∧ ts.map Prod.fst = leadingNames chains ∧
      ∀ name t, (name, t) ∈ ts → HoldsDraws chains name t := by
  have hlen : ∀ draws ∈ chains, ∀ other ∈ chains, draws.length = other.length :=
    fun draws hd other ho => Classical.byContradiction fun hne => hm (.lengths hd ho hne)
  have htensor : ∀ name ∈ leadingNames chains, ∃ t, tensorOf chains name = .ok t ∧
      HoldsDraws chains name t := by
    intro name hn
    refine tensorOf_spec h hn ?_ hlen ?_
    · exact fun s hs => Classical.byContradiction fun hl => hm (.lacking hn hs hl)
    · exact fun v hv w hw => Classical.byContradiction fun hne => hm (.extents hn hv hw hne)
  rw [tensors_of_lengths hlen]
  obtain ⟨ts, hts⟩ := mapM_ok (f := fun name => do return (name, ← tensorOf chains name))
    fun name hn => by
      obtain ⟨t, ht, -⟩ := htensor name hn
      exact ⟨(name, t), bind_eq_ok.2 ⟨t, ht, rfl⟩⟩
  refine ⟨ts, hts, map_fst_of_tensors hts, ?_⟩
  intro name t hmem
  obtain ⟨hn, ht⟩ := tensorOf_of_mem hts hmem
  obtain ⟨u, hu, hholds⟩ := htensor name hn
  cases hu.symm.trans ht; exact hholds

/-- **Stacking is exact:** records of recordable values can be stacked unless their draws do
    not fit together, and then every array holds all draws of its variable. -/
theorem tensors_exact (chains : List Draws) (h : isRecordable chains = true) :
    ((∃ e, tensors chains = .error e ∧ e.isShapeMismatch = true) ↔ Mismatched chains) ∧
    (¬ Mismatched chains → ∃ ts, tensors chains = .ok ts ∧
      ts.map Prod.fst = leadingNames chains ∧
      ∀ name t, (name, t) ∈ ts → HoldsDraws chains name t) := by
  refine ⟨⟨?_, tensors_of_mismatched h⟩, tensors_of_matched h⟩
  rintro ⟨e, he, -⟩
  refine Classical.byContradiction fun hm => ?_
  obtain ⟨ts, hts, -⟩ := tensors_of_matched h hm
  cases hts.symm.trans he

/-- Two chains of three draws: a number that is a truth value, a word or a double, and a pair
    of words. -/
def mixedRecord : List Draws :=
  let pair (i j : Int) : Value := .array (.ofInts (.ofList [i, j]))
  [[.ofList [("x", .plain (.bool true)), ("v", pair 1 2)],
    .ofList [("x", .int 3), ("v", pair 3 4)],
    .ofList [("x", .float 0.5), ("v", pair 5 6)]],
   [.ofList [("v", pair 7 8), ("x", .int (-4))],
    .ofList [("x", .int 5), ("v", pair 9 10)],
    .ofList [("x", .plain (.bool false)), ("v", pair 11 12)]]]

theorem mixedRecord_stacked : isRecordable mixedRecord = true ∧
    ∃ ts, tensors mixedRecord = .ok ts ∧ ts.map Prod.fst = ["x", "v"] ∧
      ∀ name t, (name, t) ∈ ts → HoldsDraws mixedRecord name t := by
  have h : isRecordable mixedRecord = true := by decide
  have hm : ¬ Mismatched mixedRecord := by
    rintro (⟨hd, ho, hne⟩ | ⟨hn, hs, hl⟩ | ⟨hn, hv, hw, hne⟩)
    · have hlen : ∀ draws ∈ mixedRecord, draws.length = 3 := by decide
      exact hne ((hlen _ hd).trans (hlen _ ho).symm)
    · have hall : ∀ name ∈ leadingNames mixedRecord, ∀ s ∈ mixedRecord.flatten, name ∈ s.keys := by
        decide
      exact hl (hall _ hn _ hs)
    · have hall : ∀ name ∈ leadingNames mixedRecord, ∀ v ∈ recorded mixedRecord name,
          ∀ w ∈ recorded mixedRecord name, v.dims = w.dims := by
        decide
      exact hne (hall _ hn _ hv _ hw)
  exact ⟨h, (tensors_exact mixedRecord h).2 hm⟩

end Gibbs.Assembly
