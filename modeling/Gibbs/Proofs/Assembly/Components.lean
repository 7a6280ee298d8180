/-
  The labels of the components are a faithful index.

  The components of a variable are listed in storage order: the component at a position comes
  at the place of the position in that order.  So the labels go with the columns of the values
  laid out flat, with one row per draw.  For names without an opening bracket, a label belongs
  to one component of one variable.

  * `Shape.getElem?_indices_iff`: the position at a place of the storage order;
  * `columnAt_eq_flat`, `columnsOf_eq_flat`: the columns of a variable are those of its values
    laid out flat;
  * `components_faithful`: places, columns and labels, with `evenRecord` as an example.
-/
import Gibbs.Proofs.Assembly.Agreement
import Gibbs.Proofs.Except
import Mathlib.Tactic.SplitIfs

namespace Gibbs

/-! ## Storage order -/

/-- **The position at a place** is the one whose offset is the place. -/
theorem Shape.getElem?_indices_iff {s : Shape} {k : Nat} {idx : List Nat} :
    s.indices[k]? = some idx ↔ s.admits idx = true ∧ s.offset idx = k := by
  constructor
  · intro h
    have hidx : s.admits idx = true := mem_indices_iff.1 (List.mem_of_getElem? h)
    have hoffset := getElem?_indices_offset hidx
    -- no position stands at two places
    have hlt := (List.getElem?_eq_some_iff.1 hoffset).1
    exact ⟨hidx, (List.getElem?_inj hlt (nodup_indices s)).1 (hoffset.trans h.symm)⟩
  · rintro ⟨hidx, rfl⟩
    exact getElem?_indices_offset hidx

/-- Arrays along a new first axis are as many as the axis is long. -/
theorem Tensor.shape_of_stackFirst? {ts : List Tensor} {t : Tensor} (h : stackFirst? ts = some t) :
    ∃ s, t.shape = ts.length :: s := by
  simp only [stackFirst?] at h
  split_ifs at h
  cases h
  exact ⟨(ts.map shape).headD [], by simp [shape]⟩

/-- Arrays along a first axis can be laid out flat, with one row for each of them. -/
theorem Tensor.exists_flat {t : Tensor} {n : Nat} {s : Shape} (h : t.shape = n :: s) :
    ∃ flat, t.reshape? [n, s.size] = some flat := by
  have hsize : Shape.size [n, s.size] = t.grid.shape.size := by
    rw [show t.grid.shape = n :: s from h]
    simp [Shape.size]
  exact ⟨_, by rw [reshape?, Grid.reshape?, dif_pos hsize]; rfl⟩

namespace Assembly

/-! ## Columns -/

/-- **The cells of a component** stand in one column of the flat layout. -/
theorem columnAt_eq_flat {t flat : Tensor} {n : Nat} {s : Shape} (h : t.shape = n :: s)
    (hflat : t.reshape? [n, s.size] = some flat) (idx : List Nat) :
    columnAt t idx = columnAt flat [s.offset idx] := by
  obtain ⟨g, hg, rfl⟩ := Option.map_eq_some_iff.1 hflat
  rw [Grid.reshape?] at hg
  split_ifs at hg with hsize
  cases hg
  have hshape : t.grid.shape = n :: s := h
  -- a row is moved by the same number of cells in both layouts
  simp only [columnAt, Tensor.shape, List.headD_cons, Grid.get, hshape, Shape.offset, Shape.size,
    Nat.mul_one, Nat.add_zero]

/-- **The columns of a variable** are those of its values laid out flat. -/
theorem columnsOf_eq_flat {chains : List Draws} {name : String} {cs : List (String × Column)}
    (h : columnsOf chains name = .ok cs) :
    ∃ (values : List (List Tensor)) (t flat : Tensor) (s : Shape),
      valuesOf chains name = .ok values ∧ Tensor.stackFirst? values.flatten = some t ∧
      t.shape = values.flatten.length :: s ∧
      t.reshape? [values.flatten.length, s.size] = some flat ∧
      cs = (components name s).map fun e => (e.1, columnAt flat [s.offset e.2]) := by
  obtain ⟨values, hvalues, h⟩ := bind_eq_ok.1 h
  obtain ⟨⟨⟩, -, h⟩ := bind_eq_ok.1 h
  cases ht : Tensor.stackFirst? values.flatten with
  | none => rw [ht] at h; cases h
  | some t =>
    rw [ht] at h
    cases h
    obtain ⟨s, hs⟩ := Tensor.shape_of_stackFirst? ht
    obtain ⟨flat, hflat⟩ := Tensor.exists_flat hs
    refine ⟨values, t, flat, s, hvalues, ht, hs, hflat, ?_⟩
    rw [hs, List.tail_cons]
    refine List.map_congr_left fun e _ => ?_
    obtain ⟨label, idx⟩ := e
    simp only [columnAt_eq_flat hs hflat]

/-! ## Labels -/

theorem getElem?_components {name : String} {s : Shape} {k : Nat} {label : String}
    {idx : List Nat} :
    (components name s)[k]? = some (label, idx) ↔
      s.admits idx = true ∧ s.offset idx = k ∧ label = componentLabel name idx := by
  rw [components, List.getElem?_map, Option.map_eq_some_iff]
  constructor
  · rintro ⟨idx', hidx, heq⟩
    cases heq
    obtain ⟨hadmits, hoffset⟩ := Shape.getElem?_indices_iff.1 hidx
    exact ⟨hadmits, hoffset, rfl⟩
  · rintro ⟨hadmits, hoffset, rfl⟩
    exact ⟨idx, Shape.getElem?_indices_iff.2 ⟨hadmits, hoffset⟩, rfl⟩

/-- **Labels are a faithful index.**  There are as many components as cells, and the component
    at a position stands at the place of the position in storage order and nowhere else.  The
    columns of a variable are those of its values laid out flat, with one row per draw, and the
    label at a place goes with the column at this place.  For names without an opening bracket,
    components with one label have one name and one position. -/
theorem components_faithful :
    (∀ (name : String) (s : Shape), (components name s).length = s.size ∧
      ∀ k label idx, (components name s)[k]? = some (label, idx) ↔
        s.admits idx = true ∧ s.offset idx = k ∧ label = componentLabel name idx) ∧
    (∀ (chains : List Draws) (name : String) (cs : List (String × Column)),
      columnsOf chains name = .ok cs →
      ∃ (values : List (List Tensor)) (t flat : Tensor) (s : Shape),
        valuesOf chains name = .ok values ∧ Tensor.stackFirst? values.flatten = some t ∧
        t.shape = values.flatten.length :: s ∧
        t.reshape? [values.flatten.length, s.size] = some flat ∧ cs.length = s.size ∧
        ∀ k label idx, (components name s)[k]? = some (label, idx) →
          cs[k]? = some (label, columnAt flat [k])) ∧
    ∀ (a b : String) (s t : Shape) (label : String) (i j : List Nat),
      '[' ∉ a.toList → '[' ∉ b.toList → (label, i) ∈ components a s →
      (label, j) ∈ components b t → a = b ∧ i = j := by
  refine ⟨fun name s => ⟨length_components name s, fun k label idx => getElem?_components⟩,
    fun chains name cs hcs => ?_, fun a b s t label i j ha hb hi hj => ?_⟩
  · obtain ⟨values, t, flat, s, hvalues, ht, hs, hflat, rfl⟩ := columnsOf_eq_flat hcs
    refine ⟨values, t, flat, s, hvalues, ht, hs, hflat,
      by rw [List.length_map, length_components], fun k label idx hk => ?_⟩
    rw [List.getElem?_map, hk, Option.map_some, (getElem?_components.1 hk).2.1]
  · obtain ⟨ki, hki⟩ := List.getElem?_of_mem hi
    obtain ⟨kj, hkj⟩ := List.getElem?_of_mem hj
    have hlabel := (getElem?_components.1 hki).2.2.symm.trans (getElem?_components.1 hkj).2.2
    exact componentLabel_inj ha hb hlabel

/-- The second column of the pairs is that of their second component, and no component of another
    variable has its label. -/
theorem evenRecord_components :
    (components "v" [2])[1]? = some ("v[1]", [1]) ∧
    (∃ cs flat, columnsOf evenRecord "v" = .ok cs ∧ cs.length = 2 ∧
      cs[1]? = some ("v[1]", columnAt flat [1])) ∧
    ∀ s j, ("v[1]", j) ∉ components "x" s := by
  obtain ⟨hplaces, hcolumns, hlabels⟩ := components_faithful
  have hsecond : (components "v" [2])[1]? = some ("v[1]", [1]) :=
    ((hplaces "v" [2]).2 1 "v[1]" [1]).2 (by decide)
  refine ⟨hsecond, ?_, fun s j hj => ?_⟩
  · obtain ⟨cs, hcs⟩ : ∃ cs, columnsOf evenRecord "v" = .ok cs := ⟨_, rfl⟩
    obtain ⟨values, t, flat, s, hvalues, ht, hs, -, hlength, hcolumn⟩ :=
      hcolumns evenRecord "v" cs hcs
    cases hvalues
    cases ht
    cases hs
    exact ⟨cs, flat, hcs, hlength, hcolumn 1 "v[1]" [1] hsecond⟩
  · have hmem := List.mem_of_getElem? hsecond
    exact absurd (hlabels "x" "v" s [2] "v[1]" j [1] (by decide) (by decide) hj hmem).1 (by decide)

end Assembly

end Gibbs
