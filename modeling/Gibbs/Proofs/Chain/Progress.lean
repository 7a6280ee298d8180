/-
  Interleaved chains come to an end.

  Some step is possible until the caller answers, and every step makes a configuration
  lighter.  So every interleaving that goes on as long as it can ends with an answer.

  * `Pool.exists_step`: there is no deadlock;
  * `Pool.weight`: an upper bound for the number of steps that are left;
  * `Pool.weight_lt`: every step lowers it;
  * `Pool.exists_answer`, `Pool.no_infinite_run`: an answer is reached from everywhere, and
    no interleaving goes on for ever.
-/
import Gibbs.Proofs.Chain.Interleaving
import Mathlib.Algebra.Ring.Nat
import Mathlib.Data.Nat.Find

namespace Gibbs

namespace Pool

variable {σ : Type} {P : Pool σ} {c c' : Config σ}

/-! ## No deadlock -/

/-- A busy worker can go on. -/
theorem Inv.exists_step_of_busy (h : P.Inv c) (hb : c.busy ≠ 0) : ∃ c', P.Step c c' := by
  obtain ⟨g, hg, hbusy⟩ := List.countP_pos_iff.1 (Nat.pos_of_ne_zero hb)
  obtain ⟨i, hi⟩ := List.mem_iff_getElem?.1 hg
  cases g with
  | entered =>
    obtain ⟨x, hx⟩ := h.chain_of_stage hi
    exact ⟨_, .enter hi hx⟩
  | checking m => exact ⟨_, .look hi⟩
  | sweeping m => exact ⟨_, .sweep hi⟩
  | waiting | ended | failed | cancelled => cases hbusy

open Classical in
/-- A free worker can take up a chain of the queue. -/
theorem exists_start {i : Nat} (hi : c.stages[i]? = some .waiting) (free : c.busy < P.workers) :
    ∃ c', P.Step c c' := by
  have hex : ∃ i : Nat, c.stages[i]? = some .waiting := ⟨i, hi⟩
  exact ⟨_, .start (Nat.find_spec hex) (fun _ hj => Nat.find_min hex hj) free⟩

/-- The caller has no more results than there are chains. -/
theorem Inv.length_results_le (h : P.Inv c) {results : List (List State)}
    (hc : c.caller = .collecting results) : results.length ≤ c.stages.length := by
  have htold := h.told_of hc
  refine Nat.le_of_not_lt fun hlt => ?_
  have hs := htold.2 _ _ (List.getElem?_eq_getElem hlt)
  exact absurd (List.getElem?_eq_some_iff.1 hs).1 (Nat.lt_irrefl _)

/-- **There is no deadlock:** some step is possible as long as the caller has not answered. -/
theorem exists_step (hw : 1 ≤ P.workers) (h : P.Inv c) :
    (∃ o, c.caller = .answered o) ∨ ∃ c', P.Step c c' := by
  by_cases hb : c.busy = 0
  · rcases hc : c.caller with results | e | ⟨e, i⟩ | o
    · refine Or.inr ?_
      rcases Nat.lt_or_eq_of_le (h.length_results_le hc) with hlt | heq
      · have hi := List.getElem?_eq_getElem hlt
        rcases hg : c.stages[results.length] with _ | _ | m | m | ⟨draws, cut⟩ | e | _
        all_goals rw [hg] at hi
        case waiting => exact exists_start hi (by omega)
        case ended => exact ⟨_, .collect hc hi⟩
        case failed => exact ⟨_, .meet hc hi⟩
        case cancelled =>
          -- nothing is cancelled as long as the caller collects
          have htold := h.told_of hc
          obtain ⟨x, hx⟩ := h.chain_of_stage hi
          have hs : c.stop = true := h.sound hx hi
          exact absurd (htold.1.symm.trans hs) Bool.false_ne_true
        all_goals
          exact absurd hb (Nat.pos_iff_ne_zero.1
            (List.countP_pos_iff.2 ⟨_, List.mem_of_getElem? hi, rfl⟩))
      · exact ⟨_, .finish hc heq⟩
    · exact Or.inr ⟨_, .halt hc⟩
    · refine Or.inr ?_
      rcases Nat.lt_or_ge i c.stages.length with hlt | hge
      · exact ⟨_, .cancel hc (List.getElem?_eq_getElem hlt)⟩
      · exact ⟨_, .fail hc hge hb⟩
    · exact Or.inl ⟨o, rfl⟩
  · exact Or.inr (h.exists_step_of_busy hb)

/-! ## Weights -/

/-- An upper bound for the number of steps that a chain has left, in the pool or by the
    caller's cancellation. -/
def stageWeight (P : Pool σ) : Stage σ → Nat
  | .waiting => 2 * P.total + 4
  | .entered => 2 * P.total + 3
  | .checking m => 2 * (P.total - m.sweeps) + 2
  | .sweeping m => 2 * (P.total - m.sweeps) + 1
  | .ended _ _ | .failed _ | .cancelled => 0

/-- An upper bound for the number of steps that the caller of `C` chains has left. -/
def callerWeight (C : Nat) : Caller → Nat
  | .collecting results => (C - results.length) + C + 4
  | .caught _ => C + 3
  | .cancelling _ next => (C - next) + 1
  | .answered _ => 0

/-- An upper bound for the number of steps that are left. -/
def weight (P : Pool σ) (c : Config σ) : Nat :=
  (c.stages.map P.stageWeight).sum + callerWeight c.stages.length c.caller

theorem sum_map_set {α : Type} {f : α → Nat} {a b : α} : ∀ {l : List α} {i : Nat},
    l[i]? = some a → ((l.set i b).map f).sum + f a = (l.map f).sum + f b
  | [], _, h => by cases h
  | x :: l, 0, h => by
    cases h
    simp only [List.set_cons_zero, List.map_cons, List.sum_cons]; omega
  | x :: l, i + 1, h => by
    have ih := sum_map_set (f := f) (b := b) (show l[i]? = some a from h)
    simp only [List.set_cons_succ, List.map_cons, List.sum_cons]; omega

theorem weight_setStage {i : Nat} {g : Stage σ} (hi : c.stages[i]? = some g) (g' : Stage σ) :
    P.weight (c.setStage i g') + P.stageWeight g = P.weight c + P.stageWeight g' := by
  have hsum := sum_map_set (f := P.stageWeight) (b := g') hi
  simp only [weight, Config.setStage, List.length_set]
  omega

theorem stageWeight_enter (x : State × σ) :
    P.stageWeight (P.enter x) < P.stageWeight .entered := by
  unfold enter
  split
  · exact Nat.succ_pos _
  · split
    · exact Nat.succ_pos _
    · simp [stageWeight]

theorem stageWeight_look (stop : Bool) (m : Moment σ) :
    P.stageWeight (look stop m) < P.stageWeight (.checking m) := by
  unfold look
  split <;> simp [stageWeight]

theorem stageWeight_sweep {m : Moment σ} (hm : m.sweeps < P.total) :
    P.stageWeight (P.sweep m) < P.stageWeight (.sweeping m) := by
  unfold sweep
  split
  · exact Nat.succ_pos _
  · dsimp only
    split
    · exact Nat.succ_pos _
    · simp only [stageWeight]; omega

theorem stageWeight_cancel (g : Stage σ) : P.stageWeight g.cancel ≤ P.stageWeight g := by
  cases g <;> simp [Stage.cancel, stageWeight]

/-- **Every step makes a configuration lighter.** -/
theorem weight_lt (hP : P.Ends) (h : P.Inv c) (hs : P.Step c c') : P.weight c' < P.weight c := by
  cases hs with
  | start hi _ _ =>
    have hset := weight_setStage (P := P) hi .entered
    have hlt : P.stageWeight .entered < P.stageWeight .waiting := Nat.lt_succ_self _
    omega
  | @enter i x hi hx =>
    have hset := weight_setStage (P := P) hi (P.enter x)
    have hlt := stageWeight_enter (P := P) x
    omega
  | @look i m hi =>
    have hset := weight_setStage (P := P) hi (look c.stop m)
    have hlt := stageWeight_look (P := P) c.stop m
    omega
  | @sweep i m hi =>
    obtain ⟨x, hx⟩ := h.chain_of_stage hi
    have hset := weight_setStage (P := P) hi (P.sweep m)
    have hlt := stageWeight_sweep (sweeps_lt_total (hP x (List.mem_of_getElem? hx))
      (h.sound hx hi))
    omega
  | collect hc hi =>
    have hlt := (List.getElem?_eq_some_iff.1 hi).1
    simp only [weight, hc, callerWeight, List.length_append, List.length_singleton]
    omega
  | meet hc hi =>
    have hlt := (List.getElem?_eq_some_iff.1 hi).1
    simp only [weight, hc, callerWeight]
    omega
  | finish hc hl =>
    simp only [weight, hc, callerWeight]
    omega
  | halt hc =>
    simp only [weight, hc, callerWeight]
    omega
  | @cancel e i g hc hi =>
    have hlt := (List.getElem?_eq_some_iff.1 hi).1
    have hsum := sum_map_set (f := P.stageWeight) (b := g.cancel) hi
    have hle := stageWeight_cancel (P := P) g
    simp only [weight, hc, callerWeight, Config.setStage, List.length_set]
    omega
  | fail hc hl _ =>
    simp only [weight, hc, callerWeight]
    omega

/-- **From everywhere an answer is reached.** -/
theorem exists_answer (hP : P.Ends) (hw : 1 ≤ P.workers) (h : P.Reaches c) :
    ∃ c' o, Relation.ReflTransGen P.Step c c' ∧ c'.caller = .answered o := by
  induction hk : P.weight c using Nat.strong_induction_on generalizing c with
  | _ k ih =>
    rcases exists_step hw (h.inv hP) with ⟨o, ho⟩ | ⟨d, hd⟩
    · exact ⟨c, o, .refl, ho⟩
    · have hlt : P.weight d < k := hk ▸ weight_lt hP (h.inv hP) hd
      obtain ⟨c', o, hc', ho⟩ := ih _ hlt (h.tail hd) rfl
      exact ⟨c', o, hc'.head hd, ho⟩

/-- **No interleaving goes on for ever.** -/
theorem no_infinite_run (hP : P.Ends) {f : Nat → Config σ} (h0 : f 0 = P.initial) :
    ¬ ∀ k, P.Step (f k) (f (k + 1)) := by
  intro hf
  have hinv : ∀ k, P.Inv (f k) := by
    intro k
    induction k with
    | zero => exact h0 ▸ inv_initial
    | succ k ih => exact ih.step hP (hf k)
  have hw : ∀ k, P.weight (f k) + k ≤ P.weight (f 0) := by
    intro k
    induction k with
    | zero => exact Nat.le_refl _
    | succ k ih =>
      have hlt := weight_lt hP (hinv k) (hf k)
      omega
  have hlast := hw (P.weight (f 0) + 1)
  omega

end Pool

end Gibbs
