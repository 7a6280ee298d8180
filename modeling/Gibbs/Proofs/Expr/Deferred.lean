/-
  Computations at once and deferred.

  An operation on values is carried out at once, and one that an expression takes part in becomes
  a node, to be evaluated later.  So a computation in which some values are wrapped in literals is
  carried out in part while it is built, and the results of that part become literals in turn.
  Which values are wrapped makes no difference to what comes out.

  * `Computation`: trees of operators and named functions over values;
  * `Computation.build`: the operand that they build, for a choice of the values that are wrapped;
  * `Computation.value`: what they compute if nothing is deferred;
  * `Operand.isClosed`: operands that have a value and become literals as they are;
  * `settled_neg`, `settled_arith`, `settled_call₁`, `settled_call₂`: operations on such operands
    have the value of the operation on their values;
  * `deferred_agrees`: any two choices give the same value, or none.

  Lists and tuples are left out: they become arrays as soon as they are wrapped.
-/
import Gibbs.Proofs.Model.Closing

namespace Gibbs

/-! ## Computations -/

/-- The named functions of one operand. -/
inductive NamedUnary where
  | element (e : Element)
  | sum (axis : SumAxis)
  | inverse
  | transpose
  | diagonal

/-- The named functions of two operands. -/
inductive NamedBinary where
  | outer
  | dot

/-- The operation of a named function. -/
def NamedUnary.op : NamedUnary → UnaryOp
  | element e => .element e
  | sum axis => .sum axis
  | inverse => .inverse
  | transpose => .transpose
  | diagonal => .diagonal

/-- The operation of a named function. -/
def NamedBinary.op : NamedBinary → BinaryOp
  | outer => .outer
  | dot => .dot

/-- A tree of operators and named functions over values. -/
inductive Computation where
  | leaf (v : Value)
  | neg (c : Computation)
  | arith (op : Arith) (l r : Computation)
  | call₁ (f : NamedUnary) (c : Computation)
  | call₂ (f : NamedBinary) (l r : Computation)

/-- A choice of leaves, each given by its way down the tree: to the left if `false`. -/
abbrev Choice := List Bool → Bool

/-- The choice below an operation with two operands. -/
def Choice.below (w : Choice) (right : Bool) : Choice := fun way => w (right :: way)

/-- The value of an operand; that of an expression is asked for outside of any model. -/
def Operand.settled : Operand → Except Error Value
  | value v => .ok v
  | node e => e.constantValue

namespace Computation

/-- The values at the leaves. -/
def leaves : Computation → List Value
  | leaf v => [v]
  | neg c => c.leaves
  | arith _ l r => l.leaves ++ r.leaves
  | call₁ _ c => c.leaves
  | call₂ _ l r => l.leaves ++ r.leaves

/-- Whether some leaf is chosen. -/
def chooses : Choice → Computation → Bool
  | w, leaf _ => w []
  | w, neg c => c.chooses w
  | w, arith _ l r => l.chooses (w.below false) || r.chooses (w.below true)
  | w, call₁ _ c => c.chooses w
  | w, call₂ _ l r => l.chooses (w.below false) || r.chooses (w.below true)

/-- The operand that a computation builds if the chosen leaves are wrapped in literals and the
    other ones are left as they are. -/
def build : Choice → Computation → Except Error Operand
  | w, leaf v => if w [] then do return .node (← (Operand.value v).literal) else .ok (.value v)
  | w, neg c => do (← c.build w).neg
  | w, arith op l r => do
    let a ← l.build (w.below false)
    let b ← r.build (w.below true)
    a.arith op b
  | w, call₁ f c => do (← c.build w).call₁ f.op
  | w, call₂ f l r => do
    let a ← l.build (w.below false)
    let b ← r.build (w.below true)
    a.call₂ f.op b

/-- What comes out of a computation: the operand is built, and its value is asked for. -/
def outcome (w : Choice) (c : Computation) : Except Error Value := do (← c.build w).settled

/-- What a computation on values computes. -/
def value : Computation → Except Error Value
  | leaf v => .ok v
  | neg c => do orError (← c.value).neg
  | arith op l r => do
    let v ← l.value
    let u ← r.value
    orError (op.apply v u)
  | call₁ f c => do orError (f.op.run (← c.value))
  | call₂ f l r => do
    let v ← l.value
    let u ← r.value
    orError (f.op.run v u)

end Computation

/-! ## Values that become literals as they are -/

theorem orError_eq_ok {α : Type} {r : Except Fault α} {a : α} : orError r = .ok a ↔ r = .ok a := by
  cases r with
  | error f => exact iff_of_false nofun nofun
  | ok b => exact ⟨fun h => by cases h; rfl, fun h => by cases h; rfl⟩

namespace Value

/-- Lists and tuples, which become arrays in literals. -/
def isSequence : Value → Bool
  | .list _ | .tuple _ => true
  | _ => false

theorem isSequence_ofTensor (t : Tensor) : (ofTensor t).isSequence = false := by
  unfold ofTensor
  split
  · unfold ofCell
    split <;> rfl
  · rfl

theorem isSequence_of_neg {v u : Value} (h : v.neg = .ok u) : u.isSequence = false := by
  unfold neg at h
  split at h
  · obtain ⟨p, -, h⟩ := bind_eq_ok.1 h
    cases h; rfl
  · obtain ⟨t, -, h⟩ := bind_eq_ok.1 h
    cases h; exact isSequence_ofTensor t
  · obtain ⟨t, -, h⟩ := bind_eq_ok.1 h
    cases h; exact isSequence_ofTensor t
  · cases h

/-- Where no operand is a sequence, only a text is repeated. -/
theorem isSequence_of_repeated? {v w u : Value} (hv : v.isSequence = false)
    (hw : w.isSequence = false) (h : v.repeated? w = some (.ok u)) : u.isSequence = false := by
  have htext : ∀ {s : String} {n : Int},
      (do return .plain (.text (← repeatText s n)) : Except Fault Value) = .ok u →
      u.isSequence = false := by
    intro s n hs
    obtain ⟨s', -, hs⟩ := bind_eq_ok.1 hs
    cases hs; rfl
  unfold repeated? at h
  dsimp only at h
  split at h
  · cases hv
  · cases hw
  · cases hv
  · cases hw
  · split at h
    · exact htext (Option.some.inj h)
    · cases h
  · split at h
    · exact htext (Option.some.inj h)
    · cases h
  · cases h

end Value

/-- **Arithmetic** gives no sequence unless an operand is one. -/
theorem Arith.isSequence_of_apply {op : Arith} {v w u : Value} (hv : v.isSequence = false)
    (hw : w.isSequence = false) (h : op.apply v w = .ok u) : u.isSequence = false := by
  have hgeneral : (if v.isCellwise || w.isCellwise then do
        let s ← v.side
        let t ← w.side
        return Value.ofTensor (← op.cellwise s t)
      else .error .wrongType) = .ok u → u.isSequence = false := by
    intro hu
    split at hu
    · obtain ⟨s, -, hu⟩ := bind_eq_ok.1 hu
      obtain ⟨t, -, hu⟩ := bind_eq_ok.1 hu
      obtain ⟨r, -, hu⟩ := bind_eq_ok.1 hu
      cases hu; exact Value.isSequence_ofTensor r
    · cases hu
  unfold apply at h
  split at h
  · cases hv
  · cases hv
  · cases h
  · obtain ⟨p, -, h⟩ := bind_eq_ok.1 h
    cases h; rfl
  · dsimp only at h
    split at h
    · cases hr : v.repeated? w with
      | none => rw [hr] at h; exact hgeneral h
      | some x =>
        rw [hr] at h
        exact Value.isSequence_of_repeated? hv hw (hr.trans (congrArg some h))
    · split at h
      · cases h; exact Value.isSequence_ofTensor _
      · exact hgeneral h
    · exact hgeneral h

theorem NamedUnary.isSequence_of_run {f : NamedUnary} {v u : Value} (h : f.op.run v = .ok u) :
    u.isSequence = false := by
  cases f with
  | element e =>
    obtain ⟨t, -, h⟩ := bind_eq_ok.1 h
    obtain ⟨s, -, h⟩ := bind_eq_ok.1 h
    cases h; exact Value.isSequence_ofTensor s
  | sum axis =>
    have hsum : ∀ {axis : Option Int}, v.sum axis = .ok u → u.isSequence = false := by
      intro axis hs
      obtain ⟨t, -, hs⟩ := bind_eq_ok.1 hs
      obtain ⟨s, -, hs⟩ := bind_eq_ok.1 hs
      cases hs; exact Value.isSequence_ofTensor s
    rcases axis with _ | i | b
    · exact hsum h
    · exact hsum h
    · cases h
  | inverse =>
    obtain ⟨t, -, h⟩ := bind_eq_ok.1 h
    obtain ⟨s, -, h⟩ := bind_eq_ok.1 h
    cases h; rfl
  | transpose =>
    obtain ⟨t, -, h⟩ := bind_eq_ok.1 h
    cases h; rfl
  | diagonal =>
    obtain ⟨t, -, h⟩ := bind_eq_ok.1 h
    obtain ⟨s, -, h⟩ := bind_eq_ok.1 h
    cases h; rfl

theorem NamedBinary.isSequence_of_run {f : NamedBinary} {v w u : Value}
    (h : f.op.run v w = .ok u) : u.isSequence = false := by
  cases f with
  | outer =>
    obtain ⟨s, -, h⟩ := bind_eq_ok.1 h
    obtain ⟨t, -, h⟩ := bind_eq_ok.1 h
    obtain ⟨p, -, h⟩ := bind_eq_ok.1 h
    cases h; rfl
  | dot =>
    obtain ⟨s, -, h⟩ := bind_eq_ok.1 h
    obtain ⟨t, -, h⟩ := bind_eq_ok.1 h
    obtain ⟨p, -, h⟩ := bind_eq_ok.1 h
    cases h; exact Value.isSequence_ofTensor p

/-! ## Operations on closed operands -/

namespace Expr

theorem constantValue_unary {e : Expr} (h : e.isConstant = true) (op : UnaryOp) :
    (unary op e).constantValue
      = e.constantValue >>= fun v => orError (op.run v) := by
  have hunary : (unary op e).isConstant = true := h
  rw [← valueByLevels_eq, valueByLevels, refuseOpen_of_isConstant hunary, valueByLevels_eq]
  rfl

theorem constantValue_binary {l r : Expr} (hl : l.isConstant = true) (hr : r.isConstant = true)
    (op : BinaryOp) : (binary op l r).constantValue
      = l.constantValue >>= fun v => r.constantValue >>= fun u => orError (op.run v u) := by
  have hbinary : (binary op l r).isConstant = true := isConstant_binary.2 ⟨hl, hr⟩
  rw [← valueByLevels_eq, valueByLevels, refuseOpen_of_isConstant hbinary, valueByLevels_eq,
    valueByLevels_eq]
  rfl

end Expr

namespace Operand

/-- An operand that has a value, and that becomes a literal as it is if it is one. -/
def isClosed : Operand → Bool
  | value v => !v.isSequence
  | node e => e.isConstant

variable {a b o : Operand}

theorem isClosed_value {v : Value} : (value v).isClosed = true ↔ v.isSequence = false :=
  iff_of_eq (Bool.not_eq_true' _)

/-- **A closed operand** is an expression with its value. -/
theorem toExpr_of_isClosed (h : a.isClosed = true) :
    ∃ e, a.toExpr = .ok e ∧ e.isConstant = true ∧ e.constantValue = a.settled := by
  cases a with
  | node e => exact ⟨e, rfl, h, rfl⟩
  | value v =>
    refine ⟨.literal v, ?_, rfl, rfl⟩
    rw [isClosed_value] at h
    cases v <;> first | rfl | cases h

/-- What is carried out at once is settled at once. -/
theorem settled_map (x : Except Error Value) :
    ((do return value (← x) : Except Error Operand) >>= settled) = x := by
  cases x <;> rfl

theorem settled_neg (ha : a.isClosed = true) :
    (a.neg >>= settled) = a.settled >>= fun v => orError v.neg := by
  cases a with
  | value v => exact settled_map _
  | node e => exact Expr.constantValue_unary ha .neg

theorem settled_node₂ (ha : a.isClosed = true) (hb : b.isClosed = true) (op : BinaryOp) :
    (node₂ op a b >>= settled)
      = a.settled >>= fun v => b.settled >>= fun u => orError (op.run v u) := by
  obtain ⟨l, hl, hlc, hlv⟩ := toExpr_of_isClosed ha
  obtain ⟨r, hr, hrc, hrv⟩ := toExpr_of_isClosed hb
  rw [node₂, hl, hr, ← hlv, ← hrv]
  exact Expr.constantValue_binary hlc hrc op

/-- **Arithmetic on closed operands** has the value of the arithmetic on their values. -/
theorem settled_arith (ha : a.isClosed = true) (hb : b.isClosed = true) (op : Arith) :
    (a.arith op b >>= settled)
      = a.settled >>= fun v => b.settled >>= fun u => orError (op.apply v u) := by
  cases a with
  | node e => exact settled_node₂ ha hb (.arith op)
  | value v =>
    cases b with
    | node e => exact settled_node₂ ha hb (.arith op)
    | value u => exact settled_map _

/-- **A named function of a closed operand** has the value of the function of its value. -/
theorem settled_call₁ (ha : a.isClosed = true) (op : UnaryOp) :
    (a.call₁ op >>= settled) = a.settled >>= fun v => orError (op.run v) := by
  obtain ⟨e, he, hec, hev⟩ := toExpr_of_isClosed ha
  rw [call₁, he, ← hev, ← Expr.constantValue_unary hec]
  cases a.isNode with
  | true => rfl
  | false => exact settled_map _

theorem settled_call₂ (ha : a.isClosed = true) (hb : b.isClosed = true) (op : BinaryOp) :
    (a.call₂ op b >>= settled)
      = a.settled >>= fun v => b.settled >>= fun u => orError (op.run v u) := by
  obtain ⟨l, hl, hlc, hlv⟩ := toExpr_of_isClosed ha
  obtain ⟨r, hr, hrc, hrv⟩ := toExpr_of_isClosed hb
  rw [call₂, hl, hr, ← hlv, ← hrv, ← Expr.constantValue_binary hlc hrc]
  cases a.isNode || b.isNode with
  | true => rfl
  | false => exact settled_map _

/-! ## Closed results -/

theorem isClosed_of_map {x : Except Error Value} (hx : ∀ v, x = .ok v → v.isSequence = false)
    (h : (do return value (← x)) = (.ok o : Except Error Operand)) : o.isClosed = true := by
  obtain ⟨v, hv, h⟩ := bind_eq_ok.1 h
  cases h
  exact isClosed_value.2 (hx v hv)

theorem isClosed_of_neg (ha : a.isClosed = true) (h : a.neg = .ok o) : o.isClosed = true := by
  cases a with
  | value v => exact isClosed_of_map (fun u hu => Value.isSequence_of_neg (orError_eq_ok.1 hu)) h
  | node e => cases h; exact ha

theorem isClosed_of_node₂ (ha : a.isClosed = true) (hb : b.isClosed = true) {op : BinaryOp}
    (h : node₂ op a b = .ok o) : o.isClosed = true := by
  obtain ⟨l, hl, hlc, -⟩ := toExpr_of_isClosed ha
  obtain ⟨r, hr, hrc, -⟩ := toExpr_of_isClosed hb
  rw [node₂, hl, hr] at h
  cases h
  exact Expr.isConstant_binary.2 ⟨hlc, hrc⟩

theorem isClosed_of_arith (ha : a.isClosed = true) (hb : b.isClosed = true) {op : Arith}
    (h : a.arith op b = .ok o) : o.isClosed = true := by
  cases a with
  | node e => exact isClosed_of_node₂ ha hb h
  | value v =>
    cases b with
    | node e => exact isClosed_of_node₂ ha hb h
    | value u =>
      exact isClosed_of_map (fun w hw => Arith.isSequence_of_apply (isClosed_value.1 ha)
        (isClosed_value.1 hb) (orError_eq_ok.1 hw)) h

theorem isClosed_of_call₁ (ha : a.isClosed = true) {f : NamedUnary}
    (h : a.call₁ f.op = .ok o) : o.isClosed = true := by
  obtain ⟨e, he, hec, -⟩ := toExpr_of_isClosed ha
  rw [call₁, he] at h
  cases hn : a.isNode with
  | true => rw [hn] at h; cases h; exact hec
  | false =>
    rw [hn] at h
    refine isClosed_of_map (fun u hu => ?_) h
    rw [Expr.constantValue_unary hec] at hu
    obtain ⟨v, -, hu⟩ := bind_eq_ok.1 hu
    exact NamedUnary.isSequence_of_run (orError_eq_ok.1 hu)

theorem isClosed_of_call₂ (ha : a.isClosed = true) (hb : b.isClosed = true) {f : NamedBinary}
    (h : a.call₂ f.op b = .ok o) : o.isClosed = true := by
  obtain ⟨l, hl, hlc, -⟩ := toExpr_of_isClosed ha
  obtain ⟨r, hr, hrc, -⟩ := toExpr_of_isClosed hb
  rw [call₂, hl, hr] at h
  cases hn : a.isNode || b.isNode with
  | true =>
    simp only [hn] at h
    cases h
    exact Expr.isConstant_binary.2 ⟨hlc, hrc⟩
  | false =>
    simp only [hn] at h
    refine isClosed_of_map (fun u hu => ?_) h
    rw [Expr.constantValue_binary hlc hrc] at hu
    obtain ⟨v, -, hu⟩ := bind_eq_ok.1 hu
    obtain ⟨w, -, hu⟩ := bind_eq_ok.1 hu
    exact NamedBinary.isSequence_of_run (orError_eq_ok.1 hu)

/-! ## Nodes -/

theorem isNode_of_node₂ {op : BinaryOp} (h : node₂ op a b = .ok o) : o.isNode = true := by
  obtain ⟨l, -, h⟩ := bind_eq_ok.1 h
  obtain ⟨r, -, h⟩ := bind_eq_ok.1 h
  cases h; rfl

theorem isNode_of_neg (h : a.neg = .ok o) : o.isNode = a.isNode := by
  cases a with
  | value v =>
    obtain ⟨u, -, h⟩ := bind_eq_ok.1 h
    cases h; rfl
  | node e => cases h; rfl

theorem isNode_of_arith {op : Arith} (h : a.arith op b = .ok o) :
    o.isNode = (a.isNode || b.isNode) := by
  cases a with
  | node e => exact isNode_of_node₂ h
  | value v =>
    cases b with
    | node e => exact isNode_of_node₂ h
    | value u =>
      obtain ⟨x, -, h⟩ := bind_eq_ok.1 h
      cases h; rfl

theorem isNode_of_call₁ {op : UnaryOp} (h : a.call₁ op = .ok o) : o.isNode = a.isNode := by
  obtain ⟨e, -, h⟩ := bind_eq_ok.1 h
  cases hn : a.isNode with
  | true => rw [hn] at h; cases h; rfl
  | false =>
    rw [hn] at h
    obtain ⟨x, -, h⟩ := bind_eq_ok.1 h
    cases h; rfl

theorem isNode_of_call₂ {op : BinaryOp} (h : a.call₂ op b = .ok o) :
    o.isNode = (a.isNode || b.isNode) := by
  obtain ⟨l, -, h⟩ := bind_eq_ok.1 h
  obtain ⟨r, -, h⟩ := bind_eq_ok.1 h
  cases hn : a.isNode || b.isNode with
  | true => simp only [hn] at h; cases h; rfl
  | false =>
    simp only [hn] at h
    obtain ⟨x, -, h⟩ := bind_eq_ok.1 h
    cases h; rfl

end Operand

/-! ## Choices -/

namespace Computation

open Operand

variable {c : Computation} {w : Choice} {o : Operand}

/-- A computation none of whose values is a list or a tuple. -/
def IsFlat (c : Computation) : Prop := ∀ v ∈ c.leaves, v.isSequence = false

/-- Numbers and arrays are no lists and no tuples. -/
theorem isFlat_of_isNumeric (h : ∀ v ∈ c.leaves, v.isNumeric = true) : c.IsFlat := by
  intro v hv
  have hnumeric := h v hv
  cases v <;> first | rfl | cases hnumeric

/-- **What a computation builds** has a value whatever is chosen. -/
theorem isClosed_build (hc : c.IsFlat) (h : c.build w = .ok o) : o.isClosed = true := by
  induction c generalizing w o with
  | leaf v =>
    have hv : v.isSequence = false := hc v List.mem_cons_self
    unfold build at h
    split at h
    · obtain ⟨e, he, hec, -⟩ := toExpr_of_isClosed (isClosed_value.2 hv)
      obtain ⟨e', he', h⟩ := bind_eq_ok.1 h
      cases he.symm.trans he'
      cases h; exact hec
    · cases h; exact isClosed_value.2 hv
  | neg c ih =>
    obtain ⟨a, ha, h⟩ := bind_eq_ok.1 h
    exact isClosed_of_neg (ih hc ha) h
  | arith op l r ihl ihr =>
    obtain ⟨hl, hr⟩ := List.forall_mem_append.1 hc
    obtain ⟨a, ha, h⟩ := bind_eq_ok.1 h
    obtain ⟨b, hb, h⟩ := bind_eq_ok.1 h
    exact isClosed_of_arith (ihl hl ha) (ihr hr hb) h
  | call₁ f c ih =>
    obtain ⟨a, ha, h⟩ := bind_eq_ok.1 h
    exact isClosed_of_call₁ (ih hc ha) h
  | call₂ f l r ihl ihr =>
    obtain ⟨hl, hr⟩ := List.forall_mem_append.1 hc
    obtain ⟨a, ha, h⟩ := bind_eq_ok.1 h
    obtain ⟨b, hb, h⟩ := bind_eq_ok.1 h
    exact isClosed_of_call₂ (ihl hl ha) (ihr hr hb) h

/-- An operation on one operand, which is built first. -/
theorem outcome_unary {x : Except Error Operand} {f : Operand → Except Error Operand}
    {g : Value → Except Error Value}
    (hf : ∀ a, x = .ok a → (f a >>= settled) = a.settled >>= g) {v : Value} :
    (x >>= f >>= settled) = .ok v ↔ ∃ u, (x >>= settled) = .ok u ∧ g u = .ok v := by
  cases x with
  | error e => exact iff_of_false nofun (fun ⟨_, h, _⟩ => by cases h)
  | ok a =>
    change (f a >>= settled) = .ok v ↔ ∃ u, a.settled = .ok u ∧ g u = .ok v
    rw [hf a rfl, bind_eq_ok]

/-- An operation on two operands, of which both are built before either is settled. -/
theorem outcome_binary {x y : Except Error Operand} {f : Operand → Operand → Except Error Operand}
    {g : Value → Value → Except Error Value}
    (hf : ∀ a b, x = .ok a → y = .ok b →
      (f a b >>= settled) = a.settled >>= fun v => b.settled >>= fun u => g v u) {v : Value} :
    ((x >>= fun a => y >>= fun b => f a b) >>= settled) = .ok v ↔
      ∃ t u, (x >>= settled) = .ok t ∧ (y >>= settled) = .ok u ∧ g t u = .ok v := by
  cases x with
  | error e => exact iff_of_false nofun (fun ⟨_, _, h, _⟩ => by cases h)
  | ok a =>
    cases y with
    | error e => exact iff_of_false nofun (fun ⟨_, _, _, h, _⟩ => by cases h)
    | ok b =>
      change (f a b >>= settled) = .ok v ↔ ∃ t u, a.settled = .ok t ∧ b.settled = .ok u ∧ _
      rw [hf a b rfl rfl, bind₂_eq_ok]

/-- **What comes out** is what the computation computes if nothing is deferred. -/
theorem outcome_eq_ok (hc : c.IsFlat) {v : Value} :
    c.outcome w = .ok v ↔ c.value = .ok v := by
  induction c generalizing w v with
  | leaf u =>
    have hu : u.isSequence = false := hc u List.mem_cons_self
    unfold outcome build value
    split
    · obtain ⟨e, he, -, hev⟩ := toExpr_of_isClosed (isClosed_value.2 hu)
      have hl : (Operand.value u).literal = .ok e := he
      rw [hl, ← show e.constantValue = .ok u from hev]
      rfl
    · exact Iff.rfl
  | neg c ih =>
    refine (outcome_unary (x := c.build w) (f := Operand.neg) fun a ha =>
      settled_neg (isClosed_build (c := c) hc ha)).trans ?_
    rw [value, bind_eq_ok]
    exact exists_congr fun u => and_congr_left fun _ => ih hc
  | arith op l r ihl ihr =>
    obtain ⟨hl, hr⟩ := List.forall_mem_append.1 hc
    refine (outcome_binary (x := l.build (w.below false)) (y := r.build (w.below true))
      (f := Operand.arith op) fun a b ha hb =>
        settled_arith (isClosed_build hl ha) (isClosed_build hr hb) op).trans ?_
    rw [value, bind₂_eq_ok]
    exact exists₂_congr fun t u => and_congr (ihl hl) (and_congr_left fun _ => ihr hr)
  | call₁ f c ih =>
    refine (outcome_unary (x := c.build w) (f := Operand.call₁ f.op) fun a ha =>
      settled_call₁ (isClosed_build (c := c) hc ha) f.op).trans ?_
    rw [value, bind_eq_ok]
    exact exists_congr fun u => and_congr_left fun _ => ih hc
  | call₂ f l r ihl ihr =>
    obtain ⟨hl, hr⟩ := List.forall_mem_append.1 hc
    refine (outcome_binary (x := l.build (w.below false)) (y := r.build (w.below true))
      (f := Operand.call₂ f.op) fun a b ha hb =>
        settled_call₂ (isClosed_build hl ha) (isClosed_build hr hb) f.op).trans ?_
    rw [value, bind₂_eq_ok]
    exact exists₂_congr fun t u => and_congr (ihl hl) (and_congr_left fun _ => ihr hr)

/-- **What is built is an expression** exactly if some leaf is wrapped. -/
theorem isNode_build (h : c.build w = .ok o) : o.isNode = c.chooses w := by
  induction c generalizing w o with
  | leaf v =>
    unfold build at h
    unfold chooses
    split at h
    · next hw =>
      obtain ⟨e, -, h⟩ := bind_eq_ok.1 h
      cases h; exact hw.symm
    · next hw =>
      cases h; exact (Bool.eq_false_iff.2 hw).symm
  | neg c ih =>
    obtain ⟨a, ha, h⟩ := bind_eq_ok.1 h
    rw [chooses, ← ih ha]
    exact isNode_of_neg h
  | arith op l r ihl ihr =>
    obtain ⟨a, ha, h⟩ := bind_eq_ok.1 h
    obtain ⟨b, hb, h⟩ := bind_eq_ok.1 h
    rw [chooses, ← ihl ha, ← ihr hb]
    exact isNode_of_arith h
  | call₁ f c ih =>
    obtain ⟨a, ha, h⟩ := bind_eq_ok.1 h
    rw [chooses, ← ih ha]
    exact isNode_of_call₁ h
  | call₂ f l r ihl ihr =>
    obtain ⟨a, ha, h⟩ := bind_eq_ok.1 h
    obtain ⟨b, hb, h⟩ := bind_eq_ok.1 h
    rw [chooses, ← ihl ha, ← ihr hb]
    exact isNode_of_call₂ h

end Computation

/-- **Computations at once and deferred agree.**  Let no leaf of a computation be a list or a
    tuple.  For any two choices of the leaves that are wrapped in literals, the operand that is
    built has a value for one choice exactly if it has the same value for the other one, which is
    what the computation computes if nothing is deferred.  The operand is an expression exactly if
    some leaf is wrapped. -/
theorem deferred_agrees {c : Computation} (hc : c.IsFlat) (w w' : Choice) :
    (∀ v, c.outcome w = .ok v ↔ c.outcome w' = .ok v) ∧
    (∀ v, c.outcome w = .ok v ↔ c.value = .ok v) ∧
    ∀ o, c.build w = .ok o → o.isNode = c.chooses w :=
  ⟨fun _ => (Computation.outcome_eq_ok hc).trans (Computation.outcome_eq_ok hc).symm,
    fun _ => Computation.outcome_eq_ok hc, fun _ => Computation.isNode_build⟩

/-! ## A sum times a difference -/

/-- A vector of three integers. -/
def threeWords : Value := .array (.ofInts (.ofList [1, 2, 3]))

/-- The sum of a vector, times the difference of a number and a negative. -/
def mixedTree : Computation :=
  .arith .mul (.call₁ (.sum .all) (.leaf threeWords))
    (.arith .sub (.leaf (.int 2)) (.neg (.leaf (.int 5))))

/-- Only the first number is wrapped, or nothing is; both give a single integer of fixed width. -/
theorem mixedTree_agrees : mixedTree.IsFlat ∧
    mixedTree.outcome (fun _ => false) = .ok (.cell ⟨.int .word, (42 : Int)⟩) ∧
    mixedTree.outcome (fun way => way == [true, false]) = .ok (.cell ⟨.int .word, (42 : Int)⟩) ∧
    ∃ o, mixedTree.build (fun way => way == [true, false]) = .ok o ∧ o.isNode = true := by
  have hflat : mixedTree.IsFlat := by
    refine Computation.isFlat_of_isNumeric ?_
    simp [mixedTree, threeWords, Computation.leaves, Value.int, Value.isNumeric]
  obtain ⟨hagree, -, hnode⟩ :=
    deferred_agrees hflat (fun way => way == [true, false]) fun _ => false
  have hraw : mixedTree.outcome (fun _ => false) = .ok (.cell ⟨.int .word, (42 : Int)⟩) := rfl
  obtain ⟨o, ho⟩ : ∃ o, mixedTree.build (fun way => way == [true, false]) = .ok o := ⟨_, rfl⟩
  exact ⟨hflat, hraw, (hagree _).2 hraw, o, ho, hnode o ho⟩

end Gibbs
