/-
  Values as counts.

  Arguments that count something may be any number.  They are compared as they are and cut
  to an integer afterwards.

  * `Value.lessThan`: whether a value is below an integer bound;
  * `Value.truncated`: the integer part of a value;
  * `Value.equalsCount`: whether a value is the number of a count, which a number with a
    fractional part never is;
  * `Value.IsInteger`: values that amount to an integer, for which all of these are exact.
-/
import Gibbs.Value.Basic

namespace Gibbs

namespace Value

/-- The single plain scalar that a value amounts to, if it is a number or an array with one
    cell. -/
def single : Value → Except Fault Plain
  | .plain p => .ok p
  | .cell c => .ok c.toPlain
  | .array t => match t.plains with
    | [p] => .ok p
    | _ => .error .badValue
  | _ => .error .wrongType

/-- Whether a value is less than an integer. -/
def lessThan (v : Value) (bound : Int) : Except Fault Bool := do
  let p ← v.single
  p.less (.int bound)

/-- The integer part of a number, toward zero. -/
def truncated (v : Value) : Except Fault Int := do
  match (← v.single).number? with
  | some (.int i) => return i
  | some (.float x) =>
    if x.isNaN then throw .badValue
    else match Decimal.toInt? x with
      | some i => return i
      | none => throw .overflow
  | none => throw .wrongType

/-- Whether a value is the number of a count.  Numbers are compared exactly. -/
def equalsCount (v : Value) (n : Nat) : Bool :=
  match v.single with
  | .ok p => match p.number? with
    | some (.int i) => i == n
    | some (.float x) => Decimal.isIntegral x && Decimal.toInt? x == some (n : Int)
    | none => false
  | .error _ => false

/-- **A count that is not the integer part** of a value is not its number. -/
theorem equalsCount_of_truncated_ne {v : Value} {i : Int} {n : Nat} (h : v.truncated = .ok i)
    (hne : i ≠ n) : v.equalsCount n = false := by
  unfold truncated at h
  unfold equalsCount
  cases hs : v.single with
  | error f => rfl
  | ok p =>
    rw [hs] at h
    simp only [bind, Except.bind] at h
    dsimp only
    cases hp : p.number? with
    | none => rfl
    | some q =>
      rw [hp] at h
      cases q with
      | int j =>
        cases h
        simpa using hne
      | float x =>
        dsimp only at h ⊢
        split at h
        · cases h
        · cases hx : Decimal.toInt? x with
          | none => rw [hx] at h; cases h
          | some j =>
            rw [hx] at h; cases h
            simp [hne]

/-! ## Integers -/

/-- A value that amounts to a single integer. -/
def IsInteger (v : Value) (i : Int) : Prop :=
  ∃ p, v.single = .ok p ∧ p.number? = some (.int i)

theorem isInteger_int (i : Int) : (Value.int i).IsInteger i := ⟨.int i, rfl, rfl⟩

theorem lessThan_of_isInteger {v : Value} {i : Int} (h : v.IsInteger i) (bound : Int) :
    v.lessThan bound = .ok (decide (i < bound)) := by
  obtain ⟨p, hs, hn⟩ := h
  have hb : (Plain.int bound).number? = some (.int bound) := rfl
  simp [lessThan, hs, bind, Except.bind, Plain.less, hn, hb]

theorem truncated_of_isInteger {v : Value} {i : Int} (h : v.IsInteger i) :
    v.truncated = .ok i := by
  obtain ⟨p, hs, hn⟩ := h
  simp [truncated, hs, bind, Except.bind, hn, pure, Except.pure]

theorem equalsCount_of_isInteger {v : Value} {i : Int} (h : v.IsInteger i) (n : Nat) :
    v.equalsCount n = (i == n) := by
  obtain ⟨p, hs, hn⟩ := h
  simp [equalsCount, hs, hn]

end Value

end Gibbs
