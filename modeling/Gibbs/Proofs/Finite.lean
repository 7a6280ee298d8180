/-
  Finite numbers: their integer parts, and which of them are counts.

  A finite double is a zero, or it has a sign, a significand and an exponent that stand in its
  bits; its magnitude is read off the same bits.  So every finite number has an integer part,
  and one that is not below zero or one has an integer part that is not below it either.

  * `Decimal.sign`, `field`, `fraction`: the bits of a double; `unpack_eq`, `ofFloat?_eq`: its
    value and its magnitude in terms of them;
  * `Decimal.unpack_of_isFinite`: the value of a finite double against its magnitude;
  * `Decimal.exists_toInt?`, `nonneg_of_not_lt`, `one_le_of_not_lt`: integer parts;
  * `Value.isFinite`: values that are finite numbers; `Value.exists_truncated`,
    `exists_truncated_pos`: what they are cut to;
  * `Value.equalsCount_unique`: a number that is a count is no other one.
-/
import Gibbs.Value.Count
import Mathlib.Tactic.SplitIfs

namespace Gibbs

namespace Decimal

open Float.Model (UnpackedFloat)
open Float.Model.UnpackedFloat (Sign unpackExponent unpackMantissa unpackSign)

/-! ## Bits -/

/-- The sign of a double. -/
def sign (x : Float) : Sign := .ofBitVec (@unpackSign .binary64 x.toBits.toBitVec)

/-- The exponent field of a double. -/
def field (x : Float) : BitVec 11 := @unpackExponent .binary64 x.toBits.toBitVec

/-- The fraction field of a double. -/
def fraction (x : Float) : BitVec 52 := @unpackMantissa .binary64 x.toBits.toBitVec

theorem toNat_field (x : Float) :
    (field x).toNat = x.toBits.toNat % Nat.pow 2 63 / Nat.pow 2 52 := by
  change x.toBits.toNat >>> 52 % 2 ^ 11 = _
  rw [Nat.shiftRight_eq_div_pow]
  simp only [Nat.pow_eq]
  omega

theorem toNat_fraction (x : Float) :
    (fraction x).toNat = x.toBits.toNat % Nat.pow 2 63 % Nat.pow 2 52 := by
  change x.toBits.toNat >>> 0 % 2 ^ 52 = _
  rw [Nat.shiftRight_zero]
  simp only [Nat.pow_eq]
  omega

theorem toNat_unpackSign (x : Float) :
    (@unpackSign .binary64 x.toBits.toBitVec).toNat = x.toBits.toNat / Nat.pow 2 63 := by
  have hx := x.toBits.toNat_lt
  change x.toBits.toNat >>> 63 % 2 ^ 1 = _
  rw [Nat.shiftRight_eq_div_pow]
  simp only [Nat.pow_eq]
  omega

theorem isNegative_of_sign {x : Float} (h : sign x = .positive) : isNegative x = false := by
  have hs : @unpackSign .binary64 x.toBits.toBitVec = 0#1 := by
    unfold sign Sign.ofBitVec at h
    split at h
    · assumption
    · cases h
  have hx := toNat_unpackSign x
  rw [hs] at hx
  change 0 = x.toBits.toNat / Nat.pow 2 63 at hx
  unfold isNegative
  rw [beq_eq_false_iff_ne, ne_eq, ← UInt64.toNat_inj, UInt64.toNat_shiftRight]
  change ¬ x.toBits.toNat >>> 63 = 1
  rw [Nat.shiftRight_eq_div_pow]
  exact hx ▸ Nat.zero_ne_one

theorem fraction_pos {x : Float} (h : fraction x ≠ 0#52) : 0 < (fraction x).toNat :=
  Nat.pos_of_ne_zero fun h' => h (BitVec.eq_of_toNat_eq h')

/-- The significand of a normal double: the leading bit stands before the fraction. -/
theorem toNat_append_fraction (x : Float) :
    (1#1 ++ fraction x).toNat = Nat.pow 2 52 + (fraction x).toNat := by
  rw [BitVec.toNat_append, ← Nat.shiftLeft_add_eq_or_of_lt (fraction x).isLt]
  rfl

theorem append_fraction_pos (x : Float) : 0 < (1#1 ++ fraction x).toNat := by
  rw [toNat_append_fraction]
  exact Nat.add_pos_left (by decide) _

/-- The value of a double in terms of its bits. -/
theorem unpack_eq (x : Float) :
    x.toModel.unpack = if field x = -1#11 then
        if fraction x = 0#52 then .infinity (sign x) else .notANumber
      else if field x = 0#11 then
        if h : fraction x = 0#52 then .zero (sign x)
        else .finite (sign x) (fraction x).toNat ((field x).toNat - 1075 + 1) (fraction_pos h)
      else .finite (sign x) (1#1 ++ fraction x).toNat ((field x).toNat - 1075)
        (append_fraction_pos x) := rfl

/-- The magnitude of a double in terms of its bits. -/
theorem ofFloat?_eq (x : Float) :
    Binary.ofFloat? x = if field x = -1#11 then none
      else if field x = 0#11 then some ⟨(fraction x).toNat, -1074⟩
      else some ⟨Nat.pow 2 52 + (fraction x).toNat, (field x).toNat - 1075⟩ := by
  unfold Binary.ofFloat?
  simp only [← toNat_field, ← toNat_fraction, beq_iff_eq, ← BitVec.toNat_inj]
  rfl

/-- **A finite double** is a zero, or it has the significand and the exponent of its
    magnitude. -/
theorem unpack_of_isFinite {x : Float} (h : x.isFinite = true) :
    (x.toModel.unpack = .zero (sign x) ∧ Binary.ofFloat? x = some ⟨0, -1074⟩) ∨
    ∃ m e hm, x.toModel.unpack = .finite (sign x) m e hm ∧ Binary.ofFloat? x = some ⟨m, e⟩ ∧
      (Nat.pow 2 52 ≤ m ∨ e = -1074) := by
  change x.toModel.unpack.isFinite = true at h
  rw [unpack_eq] at h ⊢
  rw [ofFloat?_eq]
  by_cases hlast : field x = -1#11
  · rw [if_pos hlast] at h
    split_ifs at h <;> cases h
  rw [if_neg hlast, if_neg hlast]
  by_cases hfirst : field x = 0#11
  · rw [if_pos hfirst, if_pos hfirst]
    by_cases hzero : fraction x = 0#52
    · rw [dif_pos hzero, hzero]
      exact .inl ⟨rfl, rfl⟩
    · have hexponent : ((field x).toNat : Int) - 1075 + 1 = -1074 := by rw [hfirst]; rfl
      rw [dif_neg hzero]
      exact .inr ⟨_, _, fraction_pos hzero, rfl, by rw [hexponent], .inr hexponent⟩
  · rw [if_neg hfirst, if_neg hfirst]
    have hnormal := toNat_append_fraction x
    exact .inr ⟨_, _, append_fraction_pos x, rfl, by rw [hnormal],
      .inl (hnormal ▸ Nat.le_add_right _ _)⟩

/-! ## Integer parts -/

theorem isNaN_of_isFinite {x : Float} (h : x.isFinite = true) : x.isNaN = false := by
  change x.toModel.unpack.isNaN = false
  rcases unpack_of_isFinite h with ⟨hu, -⟩ | ⟨m, e, hm, hu, -⟩ <;> rw [hu] <;> rfl

/-- **A finite double has an integer part.** -/
theorem exists_toInt? {x : Float} (h : x.isFinite = true) : ∃ i, toInt? x = some i := by
  unfold toInt?
  rcases unpack_of_isFinite h with ⟨-, hb⟩ | ⟨m, e, hm, -, hb, -⟩ <;> rw [hb] <;> exact ⟨_, rfl⟩

theorem toInt?_of_positive {x : Float} {m : Nat} {e : Int} (hb : Binary.ofFloat? x = some ⟨m, e⟩)
    (hs : sign x = .positive) :
    toInt? x = some ((m * Nat.pow 2 e.toNat / Nat.pow 2 (-e).toNat : Nat) : Int) := by
  unfold toInt?
  rw [hb, Option.map_some]
  simp only [Binary.toRatio, isNegative_of_sign hs, Bool.false_eq_true, if_false]

theorem lt_iff_compare (x y : Float) :
    x < y ↔ (x.toModel.unpack.compare y.toModel.unpack == some .lt) = true := by
  change x.lt y = true ↔ _
  exact decide_eq_true_iff

theorem unpack_ofInt_zero : (ofInt 0).toModel.unpack = .zero .positive := rfl

theorem unpack_ofInt_one :
    (ofInt 1).toModel.unpack = .finite .positive (Nat.pow 2 52) (-52) (by decide) := rfl

/-- A double that is not below zero has an integer part that is not below zero. -/
theorem nonneg_of_not_lt {x : Float} (h : x.isFinite = true) (hx : ¬ x < ofInt 0) {i : Int}
    (hi : toInt? x = some i) : 0 ≤ i := by
  rw [lt_iff_compare, unpack_ofInt_zero] at hx
  rcases unpack_of_isFinite h with ⟨-, hb⟩ | ⟨m, e, hm, hu, hb, -⟩
  · unfold toInt? at hi
    rw [hb, Option.map_some] at hi
    obtain rfl := Option.some.inj hi
    simp only [Binary.toRatio, Nat.zero_mul, Nat.zero_div]
    split <;> decide
  · rw [hu] at hx
    cases hs : sign x with
    | negative => rw [hs] at hx; exact absurd rfl hx
    | positive =>
      rw [toInt?_of_positive hb hs] at hi
      obtain rfl := Option.some.inj hi
      exact Int.natCast_nonneg _

theorem one_le_ratio {m : Nat} {e : Int} (he : -52 ≤ e) (hm : Nat.pow 2 52 ≤ m) :
    1 ≤ m * Nat.pow 2 e.toNat / Nat.pow 2 (-e).toNat := by
  refine Nat.div_pos ?_ (Nat.pow_pos (by decide))
  calc Nat.pow 2 (-e).toNat
    _ ≤ Nat.pow 2 52 := Nat.pow_le_pow_right (by decide) (by omega)
    _ ≤ m := hm
    _ ≤ m * Nat.pow 2 e.toNat := Nat.le_mul_of_pos_right m (Nat.pow_pos (by decide))

/-- A double that is not below one has an integer part that is not below one. -/
theorem one_le_of_not_lt {x : Float} (h : x.isFinite = true) (hx : ¬ x < ofInt 1) {i : Int}
    (hi : toInt? x = some i) : 1 ≤ i := by
  rw [lt_iff_compare, unpack_ofInt_one] at hx
  rcases unpack_of_isFinite h with ⟨hu, -⟩ | ⟨m, e, hm, hu, hb, hn⟩
  · rw [hu] at hx
    exact absurd rfl hx
  · rw [hu] at hx
    cases hs : sign x with
    | negative => rw [hs] at hx; exact absurd rfl hx
    | positive =>
      rw [toInt?_of_positive hb hs] at hi
      obtain rfl := Option.some.inj hi
      rw [hs] at hx
      change ¬ (some ((compare e (-52)).then (compare m (Nat.pow 2 52))) == some .lt) = true at hx
      -- significands are compared last, so a greater exponent needs a normal double
      have hle : -52 ≤ e ∧ Nat.pow 2 52 ≤ m := by
        rcases Int.lt_trichotomy e (-52) with he | rfl | he
        · rw [Int.compare_eq_lt.2 he] at hx
          exact absurd rfl hx
        · refine ⟨Int.le_refl _, Nat.le_of_not_lt fun hm => hx ?_⟩
          rw [Nat.compare_eq_lt.2 hm]; rfl
        · exact ⟨Int.le_of_lt he, hn.resolve_right (by omega)⟩
      exact Int.ofNat_le.2 (one_le_ratio hle.1 hle.2)

end Decimal

/-! ## Values -/

namespace Value

/-- Whether a value is a finite number, or an array whose single cell is one. -/
def isFinite (v : Value) : Bool :=
  match v.single with
  | .ok p => match p.number? with
    | some (.int _) => true
    | some (.float x) => x.isFinite
    | none => false
  | .error _ => false

/-- A value that amounts to a single finite double. -/
def IsDouble (v : Value) (x : Float) : Prop :=
  x.isFinite = true ∧ ∃ p, v.single = .ok p ∧ p.number? = some (.float x)

theorem isFinite_cases {v : Value} (h : v.isFinite = true) :
    (∃ i, v.IsInteger i) ∨ ∃ x, v.IsDouble x := by
  unfold isFinite at h
  rcases hs : v.single with f | p
  · rw [hs] at h; cases h
  rw [hs] at h
  dsimp only at h
  rcases hp : p.number? with _ | i | x
  · rw [hp] at h; cases h
  · exact .inl ⟨i, p, hs, hp⟩
  · rw [hp] at h
    exact .inr ⟨x, h, p, hs, hp⟩

namespace IsDouble

variable {v : Value} {x : Float}

theorem truncated (h : v.IsDouble x) {i : Int} (hi : Decimal.toInt? x = some i) :
    v.truncated = .ok i := by
  obtain ⟨hx, p, hs, hp⟩ := h
  simp only [Value.truncated, hs, bind, Except.bind, hp, Decimal.isNaN_of_isFinite hx,
    Bool.false_eq_true, if_false, hi]
  rfl

theorem lessThan (h : v.IsDouble x) (bound : Int) :
    v.lessThan bound = .ok (decide (x < Decimal.ofInt bound)) := by
  obtain ⟨-, p, hs, hp⟩ := h
  have hb : (Plain.int bound).number? = some (.int bound) := rfl
  simp [Value.lessThan, hs, bind, Except.bind, Plain.less, hp, hb]

theorem equalsCount (h : v.IsDouble x) (n : Nat) :
    v.equalsCount n = (Decimal.isIntegral x && Decimal.toInt? x == some (n : Int)) := by
  obtain ⟨-, p, hs, hp⟩ := h
  simp [Value.equalsCount, hs, hp]

end IsDouble

variable {v : Value}

/-- **A finite number that is not negative** is cut to a natural number. -/
theorem exists_truncated (h : v.isFinite = true) (hv : v.lessThan 0 = .ok false) :
    ∃ n : Nat, v.truncated = .ok (n : Int) := by
  rcases isFinite_cases h with ⟨i, hi⟩ | ⟨x, hx⟩
  · rw [lessThan_of_isInteger hi] at hv
    obtain ⟨n, rfl⟩ := Int.eq_ofNat_of_zero_le
      (Int.not_lt.1 (of_decide_eq_false (Except.ok.inj hv)))
    exact ⟨n, truncated_of_isInteger hi⟩
  · rw [hx.lessThan] at hv
    obtain ⟨i, hi⟩ := Decimal.exists_toInt? hx.1
    obtain ⟨n, rfl⟩ := Int.eq_ofNat_of_zero_le
      (Decimal.nonneg_of_not_lt hx.1 (of_decide_eq_false (Except.ok.inj hv)) hi)
    exact ⟨n, hx.truncated hi⟩

/-- **A finite number that is not below one** is cut to a positive number. -/
theorem exists_truncated_pos (h : v.isFinite = true) (hv : v.lessThan 1 = .ok false) :
    ∃ n : Nat, 1 ≤ n ∧ v.truncated = .ok (n : Int) := by
  suffices hi : ∃ i : Int, 1 ≤ i ∧ v.truncated = .ok i by
    obtain ⟨i, hle, hi⟩ := hi
    exact ⟨i.toNat, by omega, by rw [hi, Int.toNat_of_nonneg (by omega)]⟩
  rcases isFinite_cases h with ⟨i, hi⟩ | ⟨x, hx⟩
  · rw [lessThan_of_isInteger hi] at hv
    exact ⟨i, Int.not_lt.1 (of_decide_eq_false (Except.ok.inj hv)), truncated_of_isInteger hi⟩
  · rw [hx.lessThan] at hv
    obtain ⟨i, hi⟩ := Decimal.exists_toInt? hx.1
    exact ⟨i, Decimal.one_le_of_not_lt hx.1 (of_decide_eq_false (Except.ok.inj hv)) hi,
      hx.truncated hi⟩

/-- **A finite number that is a count** is the number of no other count. -/
theorem equalsCount_unique (h : v.isFinite = true) {n : Nat} (hn : v.equalsCount n = true)
    (k : Nat) : v.equalsCount k = ((n : Int) == k) := by
  rcases isFinite_cases h with ⟨i, hi⟩ | ⟨x, hx⟩
  · rw [equalsCount_of_isInteger hi] at hn ⊢
    rw [eq_of_beq hn]
  · rw [hx.equalsCount, Bool.and_eq_true] at hn
    rw [hx.equalsCount, hn.1, eq_of_beq hn.2]
    rfl

end Value

end Gibbs
