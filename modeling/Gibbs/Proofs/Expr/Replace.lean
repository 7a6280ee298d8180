/-
  Expressions in place of variables.

  * `Expr.replace`, `Expr.eval_replace`: the value of an expression in which variables are
    replaced is its value when the names stand for the values of what replaces them;
  * `Expr.mem_names_replace`, `Expr.isDisplayable_replace`: its names, and whether it has a
    text;
  * `Distribution.rebuilt`: the same for the parameters of a distribution, built anew;
  * `rebuilt_eq`: distributions that are built anew keep the order of their parameters.
-/
import Mathlib.Data.List.Basic
import Gibbs.Proofs.Model.Displayable

namespace Gibbs

/-! ## Expressions -/

namespace Expr

/-- The expression with another one for every variable. -/
def replace (g : Name → Expr) : Expr → Expr
  | var n => g n
  | literal v => literal v
  | bare => bare
  | unary op e => unary op (e.replace g)
  | binary op l r => binary op (l.replace g) (r.replace g)

/-- An expression for one name, the others for themselves. -/
def put (z : Name) (e : Expr) (n : Name) : Expr := if n = z then e else .var n

@[simp] theorem put_self (z : Name) (e : Expr) : put z e z = e := if_pos rfl

theorem put_of_ne {z n : Name} (h : n ≠ z) (e : Expr) : put z e n = .var n := if_neg h

theorem names_put_of_ne {z n : Name} (h : n ≠ z) (e : Expr) : (put z e n).names = [n] := by
  rw [put_of_ne h]; rfl

variable {g : Name → Expr}

/-- **Values of replaced names.** -/
theorem eval_replace (lookup : Name → Except Error Value) (e : Expr) :
    (e.replace g).eval lookup = e.eval fun n => (g n).eval lookup := by
  induction e with
  | var n => rfl
  | literal v => rfl
  | bare => rfl
  | unary op e ih => simp only [replace, eval, ih]
  | binary op l r ihl ihr => simp only [replace, eval, ihl, ihr]

theorem occurrences_replace (e : Expr) :
    (e.replace g).occurrences = e.occurrences.flatMap fun n => (g n).occurrences := by
  induction e with
  | var n => simp [replace, occurrences]
  | literal v => rfl
  | bare => rfl
  | unary op e ih => simp only [replace, occurrences, ih]
  | binary op l r ihl ihr => simp only [replace, occurrences, ihl, ihr, List.flatMap_append]

theorem mem_names_replace {e : Expr} {n : Name} :
    n ∈ (e.replace g).names ↔ ∃ x ∈ e.names, n ∈ (g x).names := by
  simp only [names, List.mem_eraseDups, occurrences_replace, List.mem_flatMap]

theorem isDisplayable_replace {e : Expr} (h : e.isDisplayable = true)
    (hg : ∀ n ∈ e.names, (g n).isDisplayable = true) : (e.replace g).isDisplayable = true := by
  simp only [names, List.mem_eraseDups] at hg
  induction e with
  | var n => exact hg n List.mem_cons_self
  | literal v => rfl
  | bare => exact h
  | unary op e ih =>
    simp only [isDisplayable, Bool.and_eq_true] at h
    simp only [replace, isDisplayable, h.1, ih h.2 hg, Bool.and_self]
  | binary op l r ihl ihr =>
    simp only [isDisplayable, Bool.and_eq_true] at h
    simp only [occurrences, List.mem_append] at hg
    simp only [replace, isDisplayable, h.1.1, ihl h.1.2 fun n hn => hg n (.inl hn),
      ihr h.2 fun n hn => hg n (.inr hn), Bool.and_self]

end Expr

/-! ## Distributions -/

namespace Distribution

/-- The distribution with an expression for every variable. -/
def replace (g : Name → Expr) (d : Distribution) : Distribution :=
  ⟨d.family, d.parents.map fun p => (p.1, p.2.replace g)⟩

/-- The distribution built anew from its parameters, with an expression for every variable. -/
def rebuilt (g : Name → Expr) (d : Distribution) : Except Error Distribution :=
  ofOperands d.family (d.parents.map fun p => (p.1, .node (p.2.replace g)))

/-- A distribution that was built from operands. -/
def IsBuilt (d : Distribution) : Prop := ∃ given, ofOperands d.family given = .ok d

variable {g : Name → Expr} {d d' : Distribution}

theorem eval_replace (lookup : Name → Except Error Value) :
    (d.replace g).eval lookup = d.eval fun n => (g n).eval lookup := by
  simp only [eval, replace, List.mapM_map, Function.comp_def, Expr.eval_replace]

/-- The expression given for a parameter. -/
def operandOf (given : List (String × Operand)) (name : String) : Except Error Expr :=
  ((given.lookup name).getD (.node .bare)).toExpr

theorem operandOf_map {f : String → Expr} {names : List String} {n : String} (h : n ∈ names) :
    operandOf (names.map fun n => (n, .node (f n))) n = .ok (f n) := by
  rw [operandOf, List.lookup_graph (fun n => Operand.node (f n)) h]; rfl

/-- The parameters of a distribution that was built are in the order of the family. -/
theorem parents_of_ofOperands {f : Family} {given : List (String × Operand)}
    (h : ofOperands f given = .ok d) : d.family = f ∧
      d.parents = f.names.map fun n => (n, (operandOf given n).toOption.getD .bare) := by
  obtain ⟨⟨⟩, -, h⟩ := bind_eq_ok.1 h
  obtain ⟨exprs, hexprs, h⟩ := bind_eq_ok.1 h
  obtain ⟨_, -, h⟩ := bind_eq_ok.1 h
  cases h
  refine ⟨rfl, ?_⟩
  rw [Family.names, List.map_map]
  refine map_of_mapM (fun p _ q hq => ?_) hexprs
  obtain ⟨e, he, hq⟩ := bind_eq_ok.1 hq
  cases hq
  have hoperand : operandOf given p.name = .ok e := he
  simp [hoperand, Except.toOption]

/-- **A distribution that is built anew** is the one with its variables replaced. -/
theorem rebuilt_eq (hd : d.IsBuilt) (h : d.rebuilt g = .ok d') : d' = d.replace g := by
  obtain ⟨given, hgiven⟩ := hd
  obtain ⟨-, hparents⟩ := parents_of_ofOperands hgiven
  obtain ⟨hfamily, hparents'⟩ := parents_of_ofOperands h
  have hsame : d'.parents = d.parents.map fun p => (p.1, p.2.replace g) := by
    rw [hparents', hparents, List.map_map, List.map_map]
    refine List.map_congr_left fun n hn => ?_
    have hoperand := operandOf_map
      (f := fun n => ((operandOf given n).toOption.getD .bare).replace g) hn
    exact congrArg (fun r : Except Error Expr => (n, r.toOption.getD .bare)) hoperand
  obtain ⟨family, parents⟩ := d'
  obtain rfl := hfamily
  exact congrArg (Distribution.mk d.family) hsame

end Distribution

end Gibbs
