/-
  Shapes of arrays and the positions inside them.

  A shape lists the extents of the axes; a position gives one coordinate per axis.  Cells
  are stored with the last axis running fastest.

  * `size`, `indices`, `offset`: the number of cells, their positions in storage order, and
    the place of a position in that order;
  * `length_indices`: there are as many positions as cells;
  * `mem_indices_iff`: the positions are exactly the lists the shape admits;
  * `getElem?_indices_offset`: the position with offset `k` is the `k`-th one;
  * `broadcast?`: the common shape of two operands.
-/

namespace Gibbs

/-- The extents of the axes. -/
abbrev Shape := List Nat

namespace Shape

/-- The number of cells. -/
def size : Shape → Nat
  | [] => 1
  | n :: s => n * size s

/-- The positions, the last coordinate running fastest. -/
def indices : Shape → List (List Nat)
  | [] => [[]]
  | n :: s => (List.range n).flatMap fun i => (indices s).map (i :: ·)

/-- The place of a position in storage order. -/
def offset : Shape → List Nat → Nat
  | _ :: s, i :: idx => i * size s + offset s idx
  | _, _ => 0

/-- Whether a list of coordinates is a position of the shape. -/
def admits : Shape → List Nat → Bool
  | [], [] => true
  | n :: s, i :: idx => i < n && admits s idx
  | _, _ => false

/-! ## Positions and storage order -/

theorem length_flatMap_const {α β : Type} (l : List α) (f : α → List β) (k : Nat)
    (h : ∀ a ∈ l, (f a).length = k) : (l.flatMap f).length = l.length * k := by
  induction l with
  | nil => simp
  | cons a l ih =>
    simp only [List.flatMap_cons, List.length_append, List.length_cons]
    rw [h a (by simp), ih fun b hb => h b (by simp [hb])]
    rw [Nat.add_mul, Nat.one_mul, Nat.add_comm]

/-- **There are as many positions as cells.** -/
@[simp] theorem length_indices (s : Shape) : (indices s).length = size s := by
  induction s with
  | nil => rfl
  | cons n s ih =>
    rw [indices, length_flatMap_const _ _ (size s) (by simp [ih]), List.length_range, size]

/-- **The positions** are exactly the lists of coordinates the shape admits. -/
theorem mem_indices_iff {s : Shape} {idx : List Nat} : idx ∈ indices s ↔ s.admits idx = true := by
  induction s generalizing idx with
  | nil => cases idx <;> simp [indices, admits]
  | cons n s ih =>
    cases idx with
    | nil => simp [indices, admits]
    | cons i idx => simp [indices, admits, ih]

theorem offset_lt {s : Shape} {idx : List Nat} (h : s.admits idx = true) :
    s.offset idx < s.size := by
  induction s generalizing idx with
  | nil => simp [offset, size]
  | cons n s ih =>
    cases idx with
    | nil => simp [admits] at h
    | cons i idx =>
      simp only [admits, Bool.and_eq_true, decide_eq_true_eq] at h
      have h1 := ih h.2
      simp only [offset, size]
      calc i * size s + offset s idx < i * size s + size s := by omega
        _ = (i + 1) * size s := by rw [Nat.add_mul, Nat.one_mul]
        _ ≤ n * size s := Nat.mul_le_mul_right _ h.1

theorem getElem?_flatMap_const {α β : Type} (l : List α) (f : α → List β) (k : Nat)
    (h : ∀ a ∈ l, (f a).length = k) (i j : Nat) (hj : j < k) :
    (l.flatMap f)[i * k + j]? = l[i]?.bind fun a => (f a)[j]? := by
  induction l generalizing i with
  | nil => simp
  | cons a l ih =>
    have hl : (f a).length = k := h a (by simp)
    cases i with
    | zero => simp [List.flatMap_cons, List.getElem?_append_left, hl, hj]
    | succ i =>
      rw [List.flatMap_cons, List.getElem?_append_right (by rw [hl, Nat.add_mul]; omega), hl,
        show (i + 1) * k + j - k = i * k + j by rw [Nat.add_mul]; omega,
        ih (fun b hb => h b (by simp [hb]))]
      simp

/-- **Storage order.** The position with offset `k` is the `k`-th one. -/
theorem getElem?_indices_offset {s : Shape} {idx : List Nat} (h : s.admits idx = true) :
    (indices s)[s.offset idx]? = some idx := by
  induction s generalizing idx with
  | nil => cases idx <;> simp_all [indices, offset, admits]
  | cons n s ih =>
    cases idx with
    | nil => simp [admits] at h
    | cons i idx =>
      simp only [admits, Bool.and_eq_true, decide_eq_true_eq] at h
      rw [indices, offset, getElem?_flatMap_const _ _ (size s) (by simp) _ _ (offset_lt h.2)]
      simp [h.1, ih h.2]

/-! ## Broadcasting -/

/-- The common extents of two shapes read from the last axis on: equal extents agree, and an
    extent of one (or a missing axis) takes the other's. -/
def alignedExtents : Shape → Shape → Option Shape
  | [], t => some t
  | s, [] => some s
  | m :: s, n :: t =>
    match alignedExtents s t with
    | none => none
    | some r => if m == n || n == 1 then some (m :: r) else if m == 1 then some (n :: r) else none

/-- The shape two operands are stretched to, if they fit. -/
def broadcast? (s t : Shape) : Option Shape :=
  (alignedExtents s.reverse t.reverse).map List.reverse

/-- The shape that several operands are stretched to, if they fit. -/
def broadcastAll? : List Shape → Option Shape
  | [] => some []
  | s :: rest => (broadcastAll? rest).bind (broadcast? s)

/-- The position in an operand of shape `s` that is read at a position of the stretched
    result: surplus leading coordinates are dropped, axes of extent one are read at zero. -/
def stretched (s : Shape) (idx : List Nat) : List Nat :=
  (s.zip (idx.drop (idx.length - s.length))).map fun (n, i) => if n == 1 then 0 else i

/-! ## Texts -/

/-- A shape in round brackets, with a comma after a single extent. -/
def text : Shape → String
  | [n] => "(" ++ toString n ++ ",)"
  | s => "(" ++ ", ".intercalate (s.map toString) ++ ")"

/-- Shapes are ordered by their first differing extent; a shape comes before its
    extensions. -/
def precedes : Shape → Shape → Bool
  | [], [] => false
  | [], _ :: _ => true
  | _ :: _, [] => false
  | m :: s, n :: t => m < n || (m == n && precedes s t)

end Shape

end Gibbs
