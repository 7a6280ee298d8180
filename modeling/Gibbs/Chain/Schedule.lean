/-
  Schedules: which sweeps of a chain are kept.

  The first `discard` sweeps are dropped; the next one is kept, and after it every `thin`-th
  one.

  * `Schedule.keeps`: whether a sweep, counted from one, is kept;
  * `Schedule.sweepsFor`: the number of sweeps after which a number of draws is kept;
  * `keeps_sweepsFor`: the last of these sweeps is kept.
-/
import Gibbs.Value.Basic

namespace Gibbs

/-- The number of dropped sweeps and the distance of kept ones. -/
structure Schedule where
  discard : Nat
  thin : Nat
  thin_pos : 0 < thin

namespace Schedule

/-- The schedule of two counts. -/
def ofInts (discard thin : Int) : Schedule := ⟨discard.toNat, max 1 thin.toNat, by omega⟩

/-- Whether a sweep is kept; sweeps are counted from one. -/
def keeps (s : Schedule) (sweep : Nat) : Bool :=
  decide (s.discard < sweep) && (sweep - s.discard - 1) % s.thin == 0

/-- The number of sweeps after which `draws` draws are kept, at least one. -/
def sweepsFor (s : Schedule) (draws : Nat) : Nat := s.discard + (draws - 1) * s.thin + 1

/-- **The last sweep** for a number of draws is kept. -/
theorem keeps_sweepsFor (s : Schedule) (draws : Nat) : s.keeps (s.sweepsFor draws) = true := by
  have h : s.discard + (draws - 1) * s.thin + 1 - s.discard - 1 = (draws - 1) * s.thin := by
    omega
  have h' : s.discard < s.discard + (draws - 1) * s.thin + 1 := by omega
  simp [keeps, sweepsFor, h, h']

end Schedule

end Gibbs
