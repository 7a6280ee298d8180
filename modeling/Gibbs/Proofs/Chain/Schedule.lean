/-
  Kept sweeps: which of the first sweeps of a chain a schedule keeps, and how many.

  * `Schedule.kept_eq`: the kept ones among the first sweeps, in closed form;
  * `keptCount_sweepsFor`, `keptCount_lt`: the announced number of sweeps is the first one
    that keeps a number of draws;
  * `lt_keptCount`, `filter_range_keptCount`: how many draws are kept by then.
-/
import Gibbs.Chain.Schedule
import Gibbs.Proofs.List
import Mathlib.Tactic.Ring
import Mathlib.Tactic.SplitIfs

namespace Gibbs

namespace Schedule

/-- The kept ones among the first `k` sweeps. -/
def kept (s : Schedule) (k : Nat) : List Nat := ((List.range k).map (· + 1)).filter s.keeps

/-- The number of kept ones among the first `k` sweeps. -/
def keptCount (s : Schedule) (k : Nat) : Nat := (k - s.discard + (s.thin - 1)) / s.thin

theorem kept_succ (s : Schedule) (k : Nat) :
    s.kept (k + 1) = if s.keeps (k + 1) then s.kept k ++ [k + 1] else s.kept k := by
  unfold kept
  rw [List.range_succ, List.map_append, List.filter_append]
  by_cases h : s.keeps (k + 1) = true
  · simp [h]
  · simp [h]

theorem keeps_succ_iff {s : Schedule} {k : Nat} :
    s.keeps (k + 1) = true ↔ ∃ i, k = s.discard + i * s.thin := by
  simp only [keeps, Bool.and_eq_true, decide_eq_true_eq, beq_iff_eq]
  constructor
  · rintro ⟨h, hm⟩
    obtain ⟨i, hi⟩ := Nat.dvd_of_mod_eq_zero hm
    exact ⟨i, by rw [Nat.mul_comm]; omega⟩
  · rintro ⟨i, rfl⟩
    refine ⟨by omega, ?_⟩
    rw [show s.discard + i * s.thin + 1 - s.discard - 1 = i * s.thin by omega]
    exact Nat.mul_mod_left i s.thin

theorem keptCount_add (s : Schedule) (i j : Nat) (h1 : 0 < j) (h2 : j ≤ s.thin) :
    s.keptCount (s.discard + i * s.thin + j) = i + 1 := by
  have hp := s.thin_pos
  unfold keptCount
  rw [show s.discard + i * s.thin + j - s.discard + (s.thin - 1)
      = (j - 1) + s.thin * (i + 1) by rw [Nat.mul_add, Nat.mul_comm]; omega,
    Nat.add_mul_div_left _ _ hp, Nat.div_eq_of_lt (by omega)]
  omega

theorem keptCount_of_le {s : Schedule} {k : Nat} (h : k ≤ s.discard) : s.keptCount k = 0 := by
  have hp := s.thin_pos
  unfold keptCount
  rw [Nat.sub_eq_zero_of_le h]
  exact Nat.div_eq_of_lt (by omega)

/-- After the discarded sweeps, every number of sweeps ends in some stride. -/
theorem exists_stride {s : Schedule} {k : Nat} (h : s.discard < k) :
    ∃ i j, k = s.discard + i * s.thin + j ∧ 0 < j ∧ j ≤ s.thin := by
  have hp := s.thin_pos
  refine ⟨(k - s.discard - 1) / s.thin, (k - s.discard - 1) % s.thin + 1, ?_, by omega, ?_⟩
  · have := Nat.div_add_mod (k - s.discard - 1) s.thin
    rw [Nat.mul_comm] at this
    omega
  · have := Nat.mod_lt (k - s.discard - 1) hp
    omega

/-- **The kept sweeps:** the one after the discarded ones, and then every `thin`-th one. -/
theorem kept_eq (s : Schedule) (k : Nat) :
    s.kept k = (List.range (s.keptCount k)).map fun i => s.discard + 1 + i * s.thin := by
  induction k with
  | zero => rw [keptCount_of_le (Nat.zero_le _)]; rfl
  | succ k ih =>
    rw [kept_succ, ih]
    split_ifs with h
    · obtain ⟨i, rfl⟩ := keeps_succ_iff.1 h
      rw [keptCount_add s i 1 (by omega) s.thin_pos, List.range_succ, List.map_append]
      have hi : s.keptCount (s.discard + i * s.thin) = i := by
        cases i with
        | zero => simpa using s.keptCount_of_le (Nat.le_refl _)
        | succ i =>
          rw [show s.discard + (i + 1) * s.thin = s.discard + i * s.thin + s.thin by ring]
          exact keptCount_add s i s.thin s.thin_pos (Nat.le_refl _)
      rw [hi, List.map_singleton,
        show s.discard + i * s.thin + 1 = s.discard + 1 + i * s.thin by omega]
    · suffices hc : s.keptCount (k + 1) = s.keptCount k by rw [hc]
      by_cases hk : k < s.discard
      · rw [keptCount_of_le hk, keptCount_of_le (Nat.le_of_lt hk)]
      · have hne : k ≠ s.discard := fun he => h (keeps_succ_iff.2 ⟨0, by simp [he]⟩)
        obtain ⟨i, j, rfl, hj, hjt⟩ := exists_stride (s := s) (k := k) (by omega)
        have hjlt : j < s.thin := by
          refine Nat.lt_of_le_of_ne hjt fun he => h (keeps_succ_iff.2 ⟨i + 1, ?_⟩)
          rw [he]; ring
        rw [keptCount_add s i j hj hjt, Nat.add_assoc, keptCount_add s i (j + 1) (by omega) hjlt]

/-- The number of sweeps of a schedule given by two counts. -/
theorem sweepsFor_ofInts {d t : Nat} (ht : 1 ≤ t) (n : Nat) :
    (ofInts d t).sweepsFor n = d + (n - 1) * t + 1 := by
  have hd : (ofInts d t).discard = d := Int.toNat_natCast d
  have htt : (ofInts d t).thin = t := by simp only [ofInts]; omega
  rw [sweepsFor, hd, htt]

/-- **The number of sweeps** for a number of draws keeps exactly that many. -/
theorem keptCount_sweepsFor {s : Schedule} {n : Nat} (hn : 1 ≤ n) :
    s.keptCount (s.sweepsFor n) = n := by
  rw [sweepsFor, keptCount_add s (n - 1) 1 (by omega) s.thin_pos]
  omega

/-- Fewer sweeps keep fewer draws. -/
theorem keptCount_lt {s : Schedule} {n k : Nat} (hn : 1 ≤ n) (hk : k < s.sweepsFor n) :
    s.keptCount k < n := by
  rcases Nat.lt_or_ge s.discard k with h | h
  · obtain ⟨i, j, rfl, hj, hjt⟩ := exists_stride h
    rw [keptCount_add s i j hj hjt]
    unfold sweepsFor at hk
    have : i * s.thin < (n - 1) * s.thin := by omega
    have := Nat.lt_of_mul_lt_mul_right this
    omega
  · rw [keptCount_of_le h]; omega

theorem lt_keptCount {s : Schedule} {k i : Nat} :
    i < s.keptCount k ↔ s.discard + 1 + i * s.thin ≤ k := by
  have hp := s.thin_pos
  unfold keptCount
  rw [← Nat.succ_le_iff, Nat.le_div_iff_mul_le hp, Nat.succ_mul]
  omega

theorem keptCount_le (s : Schedule) (k : Nat) : s.keptCount k ≤ k := by
  refine Nat.le_of_not_lt fun h => ?_
  have hk := lt_keptCount.1 h
  have hmul := Nat.le_mul_of_pos_right k s.thin_pos
  omega

/-- The places of the kept ones among the first `k` sweeps. -/
theorem filter_range_keptCount (s : Schedule) (k : Nat) :
    (List.range k).filter (fun i => decide (s.discard + 1 + i * s.thin ≤ k))
      = List.range (s.keptCount k) := by
  rw [← filter_range_lt (s.keptCount_le k)]
  exact List.filter_congr fun i _ => decide_eq_decide.2 lt_keptCount.symm

theorem length_kept (s : Schedule) (k : Nat) : (s.kept k).length = s.keptCount k := by
  rw [kept_eq, List.length_map, List.length_range]

end Schedule

end Gibbs
