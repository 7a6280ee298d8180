/-
  Stacked arrays, cell by cell.

  Truth values, words and doubles are ordered by what they can hold.  Stacking arrays of one
  shape gives an array of the least of these kinds that holds all of them; a cell is read at
  its position in its array together with the place of the array.

  * `Kind.result`, `Cell.widened`: the kind of a stack, and a cell as one of a wider kind;
  * `result_map_result`, `widened_widened`: the kind of a stack of stacks is that of one stack,
    and widening twice is widening once;
  * `Stacks`: an array that holds others along a new axis, converted to their common kind;
    `IsStack`: the same for these kinds, whose cells widen;
  * `stackLast?_stacks`, `stackFirst?_stacks`: stacking along a new last or first axis;
  * `IsStack.cell_cell`, `Stacks.cell_cell`: stacks of stacks, for kinds that widen and for kinds
    of one letter.
-/
import Gibbs.Proofs.List
import Gibbs.Proofs.Tensor.Letter
import Gibbs.Tensor.Basic

namespace Gibbs

/-! ## Kinds that widen -/

/-- Truth values, words and doubles. -/
def Kind.isBasic : Kind → Bool
  | .bool | .int .word | .float .double => true
  | _ => false

/-- The least kind that holds cells of the given ones: doubles if there are some, or else words
    if there are some, or else truth values. -/
def Kind.result (ks : List Kind) : Kind :=
  if .float .double ∈ ks then .float .double
  else if .int .word ∈ ks then .int .word
  else .bool

/-- A cell as one of another kind. -/
def Cell.converted (k : Kind) (c : Cell) : Cell := ⟨k, c.kind.convert k c.value⟩

/-- A cell as one of a wider kind: truth values count as zero and one, integers go to the
    nearest double. -/
def Cell.widened (k : Kind) (c : Cell) : Cell :=
  match k, c with
  | .int .word, ⟨.bool, b⟩ => ⟨.int .word, bif b then (1 : Int) else (0 : Int)⟩
  | .float .double, ⟨.bool, b⟩ => ⟨.float .double, bif b then (1.0 : Float) else (0.0 : Float)⟩
  | .float .double, ⟨.int .word, i⟩ => ⟨.float .double, Decimal.ofInt i⟩
  | _, c => c

namespace Kind

theorem isBasic_cases {k : Kind} (h : k.isBasic = true) :
    k = .bool ∨ k = .int .word ∨ k = .float .double := by
  match k, h with
  | .bool, _ => exact .inl rfl
  | .int .word, _ => exact .inr (.inl rfl)
  | .float .double, _ => exact .inr (.inr rfl)

theorem isBasic_result (ks : List Kind) : (result ks).isBasic = true := by
  unfold result
  split
  · rfl
  · split <;> rfl

/-- Basic kinds are told apart by their letters. -/
theorem eq_of_letter_eq {k l : Kind} (hk : k.isBasic = true) (hl : l.isBasic = true)
    (h : k.letter = l.letter) : k = l := by
  rcases isBasic_cases hk with rfl | rfl | rfl <;> rcases isBasic_cases hl with rfl | rfl | rfl <;>
    first | rfl | exact absurd h (by decide)

theorem join_result {k : Kind} {ks : List Kind} (hk : k.isBasic = true) (h : k ∈ ks) :
    k.join (result ks) = result ks := by
  unfold result
  rcases isBasic_cases hk with rfl | rfl | rfl
  · split
    · rfl
    · split <;> rfl
  · split
    · rfl
    · rfl
  · rw [if_pos h]; rfl

theorem foldl_join {ks : List Kind} : ∀ {k : Kind}, k.isBasic = true →
    (∀ l ∈ ks, l.isBasic = true) → ks.foldl join k = result (k :: ks) := by
  induction ks with
  | nil =>
    intro k hk _
    rcases isBasic_cases hk with rfl | rfl | rfl <;> rfl
  | cons l ks ih =>
    intro k hk hks
    have hl : l.isBasic = true := hks l List.mem_cons_self
    have hrest : ∀ l' ∈ ks, l'.isBasic = true := fun l' h => hks l' (List.mem_cons_of_mem _ h)
    rw [List.foldl_cons]
    rcases isBasic_cases hk with rfl | rfl | rfl <;>
      rcases isBasic_cases hl with rfl | rfl | rfl <;>
        (rw [ih rfl hrest]; simp [result, join])

theorem result_of_forall_eq {k : Kind} {ks : List Kind} (hk : k.isBasic = true) (hne : ks ≠ [])
    (h : ∀ l ∈ ks, l = k) : result ks = k := by
  have hmem : ∀ l, l ∈ ks ↔ l = k := by
    intro l
    refine ⟨h l, ?_⟩
    rintro rfl
    obtain ⟨l', hl'⟩ := List.exists_mem_of_ne_nil ks hne
    rw [← h l' hl']; exact hl'
  unfold result
  rcases isBasic_cases hk with rfl | rfl | rfl <;> simp [hmem]

theorem result_eq_double {ks : List Kind} :
    result ks = .float .double ↔ .float .double ∈ ks := by
  unfold result
  split
  · next h => exact iff_of_true rfl h
  · next h => exact iff_of_false (by split <;> exact nofun) h

theorem result_eq_word {ks : List Kind} :
    result ks = .int .word ↔ .float .double ∉ ks ∧ .int .word ∈ ks := by
  unfold result
  split
  · next h => exact iff_of_false nofun fun h' => h'.1 h
  · next h =>
    split
    · next h' => exact iff_of_true rfl ⟨h, h'⟩
    · next h' => exact iff_of_false nofun fun h'' => h' h''.2

theorem result_congr {ks ls : List Kind} (hd : .float .double ∈ ks ↔ .float .double ∈ ls)
    (hw : .float .double ∉ ls → (.int .word ∈ ks ↔ .int .word ∈ ls)) : result ks = result ls := by
  unfold result
  by_cases h : .float .double ∈ ls
  · rw [if_pos h, if_pos (hd.2 h)]
  · rw [if_neg h, if_neg fun h' => h (hd.1 h')]
    simp only [hw h]

/-- The kind of a stack of stacks is that of the stack of all arrays. -/
theorem result_map_result (kss : List (List Kind)) :
    result (kss.map result) = result kss.flatten := by
  refine result_congr ?_ ?_
  · simp only [List.mem_map, List.mem_flatten, result_eq_double]
  · intro hd
    simp only [List.mem_map, List.mem_flatten, result_eq_word]
    constructor
    · rintro ⟨ks, hks, -, hw⟩
      exact ⟨ks, hks, hw⟩
    · rintro ⟨ks, hks, hw⟩
      exact ⟨ks, hks, fun h => hd (List.mem_flatten.2 ⟨ks, hks, h⟩), hw⟩

end Kind

namespace Cell

theorem widened_self (c : Cell) : c.widened c.kind = c := by
  unfold widened
  split <;> simp_all

/-- **A conversion to a wider kind** widens. -/
theorem convert_eq_widened {c : Cell} {k : Kind} (hc : c.kind.isBasic = true)
    (hk : k.isBasic = true) (h : c.kind.join k = k) : c.converted k = c.widened k := by
  obtain ⟨source, a⟩ := c
  rcases Kind.isBasic_cases hc with rfl | rfl | rfl
  · rcases Kind.isBasic_cases hk with rfl | rfl | rfl
    · rfl
    · cases a <;> rfl
    · cases a <;> rfl
  · rcases Kind.isBasic_cases hk with rfl | rfl | rfl
    · cases h
    · rfl
    · rfl
  · rcases Kind.isBasic_cases hk with rfl | rfl | rfl
    · cases h
    · cases h
    · rfl

/-- **Widening twice** is widening once. -/
theorem widened_widened {c : Cell} {k l : Kind} (hc : c.kind.isBasic = true)
    (hk : k.isBasic = true) (hl : l.isBasic = true) (hck : c.kind.join k = k) (hkl : k.join l = l) :
    (c.widened k).widened l = c.widened l := by
  obtain ⟨source, a⟩ := c
  rcases Kind.isBasic_cases hk with rfl | rfl | rfl
  · rcases Kind.isBasic_cases hc with rfl | rfl | rfl
    · rfl
    · cases hck
    · cases hck
  · rcases Kind.isBasic_cases hc with rfl | rfl | rfl
    · -- zero and one are the same doubles by way of words
      rcases Kind.isBasic_cases hl with rfl | rfl | rfl
      · cases hkl
      · rfl
      · have h0 : Decimal.ofInt 0 = (0.0 : Float) := by decide
        have h1 : Decimal.ofInt 1 = (1.0 : Float) := by decide
        cases a
        · exact congrArg (Cell.mk (.float .double)) h0
        · exact congrArg (Cell.mk (.float .double)) h1
    · rfl
    · cases hck
  · rcases Kind.isBasic_cases hl with rfl | rfl | rfl
    · cases hkl
    · cases hkl
    · rcases Kind.isBasic_cases hc with rfl | rfl | rfl <;> rfl

/-- **Converting twice** to wider kinds of one letter is converting once. -/
theorem converted_converted {c : Cell} {k l : Kind} (hk : c.kind.Fits k) (hl : k.Fits l) :
    (c.converted k).converted l = c.converted l :=
  congrArg (Cell.mk l) (Kind.convert_convert hk hl c.value)

end Cell

/-! ## Cells of converted arrays -/

theorem Grid.get_map {α β : Type} [Inhabited α] [Inhabited β] (f : α → β) {g : Grid α}
    {idx : List Nat} (h : g.shape.admits idx = true) : (g.map f).get idx = f (g.get idx) := by
  have hi : g.shape.offset idx < g.cells.size := by
    rw [g.size_cells]; exact Shape.offset_lt h
  simp [get, map, Array.getD_eq_getD_getElem?, hi]

/-- A position has a coordinate for every axis. -/
theorem Shape.length_of_admits : ∀ {s : Shape} {idx : List Nat}, s.admits idx = true →
    idx.length = s.length
  | [], [], _ => rfl
  | _ :: _, _ :: _, h => by
    rw [admits, Bool.and_eq_true] at h
    rw [List.length_cons, List.length_cons, length_of_admits h.2]

/-- A position with one coordinate more, in a shape with one axis more. -/
theorem Shape.admits_append {n i : Nat} (hi : i < n) : ∀ {s : Shape} {idx : List Nat},
    s.admits idx = true → admits (s ++ [n]) (idx ++ [i]) = true
  | [], [], _ => by simp [admits, hi]
  | m :: s, j :: idx, h => by
    simp only [admits, Bool.and_eq_true] at h
    simp only [List.cons_append, admits, h.1, Shape.admits_append hi h.2, Bool.and_self]

namespace Tensor

/-- A cell of a converted array is the converted cell. -/
theorem get_cellsAs {t : Tensor} {idx : List Nat} (h : t.shape.admits idx = true) (k : Kind) :
    (t.cellsAs k).get idx = t.kind.convert k (t.grid.get idx) := by
  unfold cellsAs
  split
  · next hk => subst hk; simp
  · exact Grid.get_map _ h

/-- The common kind of arrays whose kinds have one letter. -/
theorem isWidest_commonKind {ts : List Tensor} (hne : ts ≠ []) {letter : String}
    (hl : ∀ t ∈ ts, t.kind.letter = letter) :
    Kind.IsWidest (commonKind ts) (ts.map kind) := by
  cases ts with
  | nil => exact absurd rfl hne
  | cons t ts =>
    have hfold : commonKind (t :: ts) = (ts.map kind).foldl Kind.join t.kind := by
      rw [List.foldl_map]; rfl
    rw [hfold]
    refine Kind.isWidest_foldl fun k hk => ?_
    obtain ⟨u, hu, rfl⟩ := List.mem_map.1 hk
    exact (hl u (List.mem_cons_of_mem t hu)).trans (hl t List.mem_cons_self).symm

theorem commonKind_eq {ts : List Tensor} (hne : ts ≠ []) (hb : ∀ t ∈ ts, t.kind.isBasic = true) :
    commonKind ts = Kind.result (ts.map kind) := by
  cases ts with
  | nil => exact absurd rfl hne
  | cons t ts =>
    have hrest : ∀ k ∈ ts.map kind, k.isBasic = true := by
      intro k hk
      obtain ⟨u, hu, rfl⟩ := List.mem_map.1 hk
      exact hb u (List.mem_cons_of_mem _ hu)
    rw [List.map_cons, ← Kind.foldl_join (hb t List.mem_cons_self) hrest, List.foldl_map]
    rfl

/-! ## Stacks -/

theorem all_shape {ts : List Tensor} {s : Shape} (hs : ∀ t ∈ ts, t.shape = s) :
    (ts.all fun t => t.shape == s) = true := by
  rw [List.all_eq_true]
  intro t ht
  rw [hs t ht]; exact beq_self_eq_true s

/-- A coordinate at the end. -/
def last (i : Nat) (idx : List Nat) : List Nat := idx ++ [i]

/-- An array that holds others along a new axis, in their common kind: `along` puts an extent
    or a coordinate of that axis among those of the others. -/
structure Stacks (along : Nat → List Nat → List Nat) (ts : List Tensor) (s : Shape)
    (t : Tensor) : Prop where
  shape : t.shape = along ts.length s
  kind : t.kind = commonKind ts
  cell : ∀ i u idx, ts[i]? = some u → s.admits idx = true →
    t.cell (along i idx) = (u.cell idx).converted t.kind

/-- Stacks whose cells are those of the converted arrays. -/
theorem stacks_mk {along : Nat → List Nat → List Nat} {ts : List Tensor} {s : Shape}
    (hs : ∀ t ∈ ts, t.shape = s) {g : Grid (commonKind ts).Carrier}
    (hshape : g.shape = along ts.length s)
    (hget : ∀ i u idx, ts[i]? = some u → s.admits idx = true →
      g.get (along i idx) = (u.cellsAs (commonKind ts)).get idx) :
    Stacks along ts s ⟨commonKind ts, g⟩ := by
  refine ⟨hshape, rfl, ?_⟩
  intro i u idx hu hidx
  have hidx' : u.shape.admits idx = true := by rw [hs u (List.mem_of_getElem? hu)]; exact hidx
  exact congrArg (Cell.mk (commonKind ts)) ((hget i u idx hu hidx).trans (get_cellsAs hidx' _))

/-- **Stacking along a new last axis.** -/
theorem stackLast?_stacks {ts : List Tensor} {s : Shape} (hne : ts ≠ [])
    (hs : ∀ t ∈ ts, t.shape = s) : ∃ t, stackLast? ts = some t ∧ Stacks last ts s t := by
  refine ⟨⟨commonKind ts, Grid.stackLast s (ts.map fun t => t.cellsAs (commonKind ts))⟩, ?_,
    stacks_mk hs ?_ ?_⟩
  · simp only [stackLast?, headD_map hne hs, all_shape hs, if_true]
  · simp [Grid.stackLast, last]
  · intro i u idx hu hidx
    have hi : i < ts.length := (List.getElem?_eq_some_iff.1 hu).1
    have hadm : (s ++ [(ts.map fun t => t.cellsAs (commonKind ts)).length]).admits (idx ++ [i])
        = true := by
      rw [List.length_map]; exact Shape.admits_append hi hidx
    unfold Grid.stackLast last
    rw [Grid.get_ofFn hadm, List.getLastD_concat, List.dropLast_concat, List.getElem?_map, hu]
    rfl

/-- **Stacking along a new first axis.** -/
theorem stackFirst?_stacks {ts : List Tensor} {s : Shape} (hne : ts ≠ [])
    (hs : ∀ t ∈ ts, t.shape = s) : ∃ t, stackFirst? ts = some t ∧ Stacks List.cons ts s t := by
  simp only [stackFirst?, headD_map hne hs, all_shape hs, if_true]
  refine ⟨_, rfl, stacks_mk hs (by simp) ?_⟩
  intro i u idx hu hidx
  have hi : i < ts.length := (List.getElem?_eq_some_iff.1 hu).1
  rw [Grid.get_ofFn (by simp [Shape.admits, hi, hidx])]
  simp [hu]

/-- A stack of arrays of kinds that widen, with cells that widen. -/
structure IsStack (along : Nat → List Nat → List Nat) (ts : List Tensor) (s : Shape)
    (t : Tensor) : Prop where
  shape : t.shape = along ts.length s
  kind : t.kind = Kind.result (ts.map Tensor.kind)
  cell : ∀ i u idx, ts[i]? = some u → s.admits idx = true →
    t.cell (along i idx) = (u.cell idx).widened t.kind

theorem Stacks.isStack {along : Nat → List Nat → List Nat} {ts : List Tensor} {s : Shape}
    {t : Tensor} (h : Stacks along ts s t) (hne : ts ≠ [])
    (hb : ∀ t ∈ ts, t.kind.isBasic = true) : IsStack along ts s t := by
  have hkind : t.kind = Kind.result (ts.map Tensor.kind) := h.kind.trans (commonKind_eq hne hb)
  refine ⟨h.shape, hkind, ?_⟩
  intro i u idx hu hidx
  have hmem : u ∈ ts := List.mem_of_getElem? hu
  rw [h.cell i u idx hu hidx, hkind]
  exact Cell.convert_eq_widened (c := u.cell idx) (hb u hmem) (Kind.isBasic_result _)
    (Kind.join_result (hb u hmem) (List.mem_map_of_mem hmem))

/-! ## Stacks of stacks -/

/-- **A stack of stacks:** the coordinates of a cell in its array, the place of the array in
    its stack, and the place of the stack.  A cell that has been widened twice has been widened
    once. -/
theorem IsStack.cell_cell {ts us : List Tensor} {s : Shape} {t u v : Tensor} {c d : Nat}
    {idx : List Nat} (hu : IsStack last ts s u) (ht : IsStack last us (s ++ [ts.length]) t)
    (hts : ∀ v ∈ ts, v.kind.isBasic = true) (hus : ∀ u ∈ us, u.kind.isBasic = true)
    (hc : us[c]? = some u) (hd : ts[d]? = some v) (hidx : s.admits idx = true) :
    t.cell (idx ++ [d, c]) = (v.cell idx).widened t.kind := by
  have hvmem : v ∈ ts := List.mem_of_getElem? hd
  have humem : u ∈ us := List.mem_of_getElem? hc
  have hlt : d < ts.length := (List.getElem?_eq_some_iff.1 hd).1
  have hvu : v.kind.join u.kind = u.kind := by
    rw [hu.kind]; exact Kind.join_result (hts v hvmem) (List.mem_map_of_mem hvmem)
  have hut : u.kind.join t.kind = t.kind := by
    rw [ht.kind]; exact Kind.join_result (hus u humem) (List.mem_map_of_mem humem)
  have hbasic : t.kind.isBasic = true := by
    rw [ht.kind]; exact Kind.isBasic_result _
  calc t.cell (idx ++ [d, c])
      = t.cell (last c (idx ++ [d])) := by rw [last, List.append_assoc]; rfl
    _ = (u.cell (last d idx)).widened t.kind := ht.cell c u _ hc (Shape.admits_append hlt hidx)
    _ = ((v.cell idx).widened u.kind).widened t.kind := by rw [hu.cell d v idx hd hidx]
    _ = (v.cell idx).widened t.kind :=
      Cell.widened_widened (hts v hvmem) (hus u humem) hbasic hvu hut

/-- The common kind of groups of arrays of one letter is that of all arrays. -/
theorem commonKind_flatten {tss : List (List Tensor)} {us : List Tensor} {letter : String}
    (hne : tss ≠ []) (hne' : ∀ ts ∈ tss, ts ≠ [])
    (hl : ∀ ts ∈ tss, ∀ v ∈ ts, v.kind.letter = letter)
    (hus : us.map kind = tss.map commonKind) : commonKind us = commonKind tss.flatten := by
  have hgroup : ∀ ts ∈ tss, Kind.IsWidest (commonKind ts) (ts.map kind) :=
    fun ts hts => isWidest_commonKind (hne' ts hts) (hl ts hts)
  have hletters : ∀ u ∈ us, u.kind.letter = letter := by
    intro u hu
    obtain ⟨ts, hts, heq⟩ := List.mem_map.1 (hus ▸ List.mem_map_of_mem hu)
    obtain ⟨v, hv, hkind⟩ := List.mem_map.1 (hgroup ts hts).mem
    rw [← heq, ← hkind]; exact hl ts hts v hv
  have hne'' : us ≠ [] := by
    rintro rfl
    exact hne (List.map_eq_nil_iff.1 hus.symm)
  have hflat : tss.flatten ≠ [] := by
    obtain ⟨ts, hts⟩ := List.exists_mem_of_ne_nil tss hne
    obtain ⟨v, hv⟩ := List.exists_mem_of_ne_nil ts (hne' ts hts)
    exact List.ne_nil_of_mem (List.mem_flatten.2 ⟨ts, hts, hv⟩)
  have hwidest := isWidest_commonKind hne'' hletters
  rw [hus] at hwidest
  have hall := hwidest.flatMap hgroup
  rw [List.flatMap, ← List.map_flatten] at hall
  have hl' : ∀ v ∈ tss.flatten, v.kind.letter = letter := by
    intro v hv
    obtain ⟨ts, hts, hv⟩ := List.mem_flatten.1 hv
    exact hl ts hts v hv
  exact hall.eq (isWidest_commonKind hflat hl')

/-- **A cell of a stack of stacks** of arrays of one letter: a cell that has been converted
    twice has been converted once. -/
theorem Stacks.cell_cell {ts us : List Tensor} {s : Shape} {t u v : Tensor} {c d : Nat}
    {idx : List Nat} (hu : Stacks last ts s u) (ht : Stacks last us (s ++ [ts.length]) t)
    (hvu : v.kind.Fits u.kind) (hut : u.kind.Fits t.kind) (hc : us[c]? = some u)
    (hd : ts[d]? = some v) (hidx : s.admits idx = true) :
    t.cell (idx ++ [d, c]) = (v.cell idx).converted t.kind := by
  have hlt : d < ts.length := (List.getElem?_eq_some_iff.1 hd).1
  calc t.cell (idx ++ [d, c])
      = t.cell (last c (idx ++ [d])) := by rw [last, List.append_assoc]; rfl
    _ = (u.cell (last d idx)).converted t.kind := ht.cell c u _ hc (Shape.admits_append hlt hidx)
    _ = ((v.cell idx).converted u.kind).converted t.kind := by rw [hu.cell d v idx hd hidx]
    _ = (v.cell idx).converted t.kind := Cell.converted_converted hvu hut

end Tensor

end Gibbs
