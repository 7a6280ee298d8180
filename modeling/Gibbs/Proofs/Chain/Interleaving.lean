/-
  The invariant of interleaved chains.

  Every chain in the pool keeps to what it makes by itself, and the flag goes up only after
  the caller has met the error of the first chain that fails.  So the caller never waits for
  a chain that was cut short, and answers as if the chains had run one after the other.

  * `Pool.Told`: what the caller knows;
  * `Pool.Inv`: the invariant, which every step preserves (`Inv.step`);
  * `Pool.answer_eq`: all answers are that of the chains in order.
-/
import Gibbs.Proofs.Chain.Pool

namespace Gibbs

namespace Pool

variable {σ : Type} {P : Pool σ}

/-! ## The invariant -/

/-- **What the caller knows.**  While it collects, the flag is down and the results are the
    draws of chains that were not cut short; the error that it meets is that of the chains in
    order. -/
def Told (P : Pool σ) (stages : List (Stage σ)) (stop : Bool) : Caller → Prop
  | .collecting results => stop = false ∧
      ∀ (i : Nat) draws, results[i]? = some draws → stages[i]? = some (.ended draws false)
  | .caught e => P.inOrder = .failed e
  | .cancelling e next => stop = true ∧ P.inOrder = .failed e ∧
      ∀ j < next, stages[j]? ≠ some .waiting
  | .answered o => o = P.inOrder ∧
      ∀ results, o = .finished results → stages = results.map fun draws => Stage.ended draws false

/-- The invariant of interleaved chains. -/
structure Inv (P : Pool σ) (c : Config σ) : Prop where
  length : c.stages.length = P.chains.length
  sound : ∀ {i : Nat} {x g}, P.chains[i]? = some x → c.stages[i]? = some g → P.Sound x c.stop g
  told : P.Told c.stages c.stop c.caller

theorem inv_initial : P.Inv P.initial where
  length := by simp [initial]
  sound := by
    intro i x g hx hg
    obtain ⟨_, -, rfl⟩ := Option.map_eq_some_iff.1 ((List.getElem?_map ..).symm.trans hg)
    trivial
  told := ⟨rfl, by simp⟩

/-- Every stage is that of a chain. -/
theorem Inv.chain_of_stage {c : Config σ} (h : P.Inv c) {i : Nat} {g : Stage σ}
    (hi : c.stages[i]? = some g) : ∃ x, P.chains[i]? = some x :=
  ⟨_, List.getElem?_eq_getElem (h.length ▸ (List.getElem?_eq_some_iff.1 hi).1)⟩

theorem Inv.told_of {c : Config σ} (h : P.Inv c) {k : Caller} (hc : c.caller = k) :
    P.Told c.stages c.stop k := hc ▸ h.told

/-! ## Steps of a chain -/

/-- A step of a chain that has not returned draws changes nothing that the caller knows. -/
theorem Told.set {stages : List (Stage σ)} {stop : Bool} {k : Caller} {i : Nat} {g g' : Stage σ}
    (h : P.Told stages stop k) (hi : stages[i]? = some g) (hg : ∀ draws, g ≠ .ended draws false)
    (hw : g' ≠ .waiting) : P.Told (stages.set i g') stop k := by
  cases k with
  | collecting results =>
    refine ⟨h.1, fun j draws hj => ?_⟩
    have hj' := h.2 j draws hj
    rw [List.getElem?_set_ne, hj']
    rintro rfl
    exact hg draws (Option.some.inj (hi.symm.trans hj'))
  | caught e => exact h
  | cancelling e next =>
    refine ⟨h.1, h.2.1, fun j hj hj' => ?_⟩
    by_cases hij : i = j
    · subst hij
      rw [List.getElem?_set_self (List.getElem?_eq_some_iff.1 hi).1] at hj'
      exact hw (Option.some.inj hj')
    · rw [List.getElem?_set_ne hij] at hj'
      exact h.2.2 j hj hj'
  | answered o =>
    refine ⟨h.1, fun results ho => ?_⟩
    -- all chains have returned their draws, so there is no other stage to go on from
    rw [h.2 results ho] at hi
    obtain ⟨draws, -, rfl⟩ := Option.map_eq_some_iff.1 ((List.getElem?_map ..).symm.trans hi)
    exact absurd rfl (hg draws)

/-- Chains are sound after one of them went to a sound stage. -/
theorem Inv.sound_set {c : Config σ} (h : P.Inv c) {i : Nat} {g' : Stage σ}
    (hs : ∀ x, P.chains[i]? = some x → P.Sound x c.stop g') {j : Nat} {x : State × σ} {g : Stage σ}
    (hx : P.chains[j]? = some x) (hg : (c.stages.set i g')[j]? = some g) :
    P.Sound x c.stop g := by
  by_cases hij : i = j
  · subst hij
    have hlt : i < c.stages.length := by
      simpa using (List.getElem?_eq_some_iff.1 hg).1
    rw [List.getElem?_set_self hlt] at hg
    exact Option.some.inj hg ▸ hs x hx
  · rw [List.getElem?_set_ne hij] at hg
    exact h.sound hx hg

/-- **A step of a chain** preserves the invariant if it goes to a sound stage. -/
theorem Inv.setStage {c : Config σ} (h : P.Inv c) {i : Nat} {g g' : Stage σ}
    (hi : c.stages[i]? = some g) (hg : ∀ draws, g ≠ .ended draws false) (hw : g' ≠ .waiting)
    (hs : ∀ x, P.chains[i]? = some x → P.Sound x c.stop g') : P.Inv (c.setStage i g') where
  length := (List.length_set ..).trans h.length
  sound := h.sound_set hs
  told := h.told.set hi hg hw

theorem enter_ne_waiting (x : State × σ) : P.enter x ≠ .waiting := by
  unfold enter; split
  · simp
  · split <;> simp

theorem look_ne_waiting (stop : Bool) (m : Moment σ) : look stop m ≠ .waiting := by
  unfold look; split <;> simp

theorem sweep_ne_waiting (m : Moment σ) : P.sweep m ≠ .waiting := by
  unfold sweep; split
  · simp
  · dsimp only; split <;> simp

theorem cancel_ne_waiting (g : Stage σ) : g.cancel ≠ .waiting := by
  cases g <;> simp [Stage.cancel]

theorem Sound.cancel {x : State × σ} {g : Stage σ} (h : P.Sound x true g) :
    P.Sound x true g.cancel := by
  cases g with
  | waiting => rfl
  | entered | checking | sweeping | ended | failed | cancelled => exact h

/-! ## Steps of the caller -/

/-- The results of the caller are the draws that the first chains make by themselves. -/
theorem Inv.map_chain {c : Config σ} (h : P.Inv c) {results : List (List State)}
    (hc : c.caller = .collecting results) (hl : results.length ≤ P.chains.length) :
    (P.chains.take results.length).map (fun x => (P.chain x).outcome)
      = results.map .finished := by
  have htold := h.told_of hc
  refine List.ext_getElem (by simp [hl]) fun i hi hi' => ?_
  have hi : i < results.length := by simpa using hi'
  have hx : P.chains[i]? = some P.chains[i] := List.getElem?_eq_getElem (by omega)
  have hs : (P.chain P.chains[i]).outcome = .finished results[i] :=
    h.sound hx (htold.2 i _ (List.getElem?_eq_getElem hi))
  simpa using hs

/-- The draws that the caller waits for were not cut short. -/
theorem Inv.collect {c : Config σ} (h : P.Inv c) {results : List (List State)}
    {draws : List State} {cut : Bool} (hc : c.caller = .collecting results)
    (hi : c.stages[results.length]? = some (.ended draws cut)) :
    P.Inv { c with caller := .collecting (results ++ [draws]) } where
  length := h.length
  sound := h.sound
  told := by
    have htold := h.told_of hc
    obtain ⟨x, hx⟩ := h.chain_of_stage hi
    -- a chain that was cut short has seen the flag up, which it is not while the caller collects
    have hcut : cut = false := by
      cases cut with
      | false => rfl
      | true =>
        have hs : c.stop = true := h.sound hx hi
        exact absurd (htold.1.symm.trans hs) Bool.false_ne_true
    subst hcut
    refine ⟨htold.1, fun i d hd => ?_⟩
    rcases Nat.lt_trichotomy i results.length with hlt | rfl | hgt
    · rw [List.getElem?_append_left hlt] at hd
      exact htold.2 i d hd
    · rw [List.getElem?_concat_length, Option.some.injEq] at hd
      exact hd ▸ hi
    · rw [List.getElem?_eq_none (by simp; omega)] at hd
      cases hd

/-- The error that the caller meets is that of the first chain that fails by itself. -/
theorem Inv.meet {c : Config σ} (h : P.Inv c) {results : List (List State)} {e : Error}
    (hc : c.caller = .collecting results) (hi : c.stages[results.length]? = some (.failed e)) :
    P.Inv { c with caller := .caught e } where
  length := h.length
  sound := h.sound
  told := by
    obtain ⟨x, hx⟩ := h.chain_of_stage hi
    obtain ⟨hlt, hget⟩ := List.getElem?_eq_some_iff.1 hx
    have hsplit : P.chains = P.chains.take results.length ++
        x :: P.chains.drop (results.length + 1) := by
      rw [← hget, ← List.drop_eq_getElem_cons hlt, List.take_append_drop]
    exact runInOrder_eq_failed.2
      ⟨_, x, _, results, hsplit, h.map_chain hc (Nat.le_of_lt hlt), h.sound hx hi⟩

/-- The caller that has collected all results answers as the chains in order do. -/
theorem Inv.finish {c : Config σ} (h : P.Inv c) {results : List (List State)}
    (hc : c.caller = .collecting results) (hl : results.length = c.stages.length) :
    P.Inv { c with caller := .answered (.finished results) } where
  length := h.length
  sound := h.sound
  told := by
    have htold := h.told_of hc
    have hl' : results.length = P.chains.length := hl.trans h.length
    constructor
    · have hmap := h.map_chain hc (Nat.le_of_eq hl')
      rw [hl', List.take_length] at hmap
      have happ := runInOrder_append (m := []) hmap
      rw [List.append_nil] at happ
      refine (happ.trans ?_).symm
      simp [runInOrder, Outcome.andThen, Outcome.ofExcept]
    · rintro _ ⟨⟩
      refine List.ext_getElem (by simp [hl]) fun i hi hi' => ?_
      have hi : i < results.length := by simpa using hi'
      have hs := htold.2 i _ (List.getElem?_eq_getElem hi)
      simpa using (List.getElem?_eq_some_iff.1 hs).2

theorem Inv.halt {c : Config σ} (h : P.Inv c) {e : Error} (hc : c.caller = .caught e) :
    P.Inv { c with stop := true, caller := .cancelling e 0 } where
  length := h.length
  sound hx hg := (h.sound hx hg).halt
  told := by
    have htold := h.told_of hc
    exact ⟨rfl, htold, fun j hj => absurd hj (Nat.not_lt_zero j)⟩

theorem Inv.cancel {c : Config σ} (h : P.Inv c) {e : Error} {i : Nat} {g : Stage σ}
    (hc : c.caller = .cancelling e i) (hi : c.stages[i]? = some g) :
    P.Inv { c.setStage i g.cancel with caller := .cancelling e (i + 1) } where
  length := (List.length_set ..).trans h.length
  sound := by
    have htold := h.told_of hc
    intro j x g' hx hg
    refine h.sound_set (fun y hy => ?_) hx hg
    have hs := h.sound hy hi
    rw [htold.1] at hs ⊢
    exact hs.cancel
  told := by
    have htold := h.told_of hc
    refine ⟨htold.1, htold.2.1, fun j hj hj' => ?_⟩
    change (c.stages.set i g.cancel)[j]? = _ at hj'
    rcases Nat.lt_succ_iff_lt_or_eq.1 hj with hlt | rfl
    · rw [List.getElem?_set_ne (by omega)] at hj'
      exact htold.2.2 j hlt hj'
    · rw [List.getElem?_set_self (List.getElem?_eq_some_iff.1 hi).1] at hj'
      exact cancel_ne_waiting g (Option.some.inj hj')

theorem Inv.fail {c : Config σ} (h : P.Inv c) {e : Error} {i : Nat}
    (hc : c.caller = .cancelling e i) :
    P.Inv { c with caller := .answered (.failed e) } where
  length := h.length
  sound := h.sound
  told := by
    have htold := h.told_of hc
    exact ⟨htold.2.1.symm, fun results hr => by cases hr⟩

/-! ## All interleavings -/

/-- Chains of which each one comes to an end by itself. -/
def Ends (P : Pool σ) : Prop := ∀ x ∈ P.chains, (P.chain x).outcome ≠ .running

/-- **Every step preserves the invariant.** -/
theorem Inv.step (hP : P.Ends) {c c' : Config σ} (h : P.Inv c) (hs : P.Step c c') : P.Inv c' := by
  cases hs with
  | start hi _ _ => exact h.setStage hi (by simp) (by simp) fun x _ => trivial
  | enter hi hx =>
    refine h.setStage hi (by simp) (enter_ne_waiting _) fun y hy => ?_
    obtain rfl := Option.some.inj (hx.symm.trans hy)
    exact sound_enter _ _
  | look hi =>
    exact h.setStage hi (by simp) (look_ne_waiting _ _) fun x hx => sound_look (h.sound hx hi)
  | sweep hi =>
    exact h.setStage hi (by simp) (sweep_ne_waiting _) fun x hx =>
      sound_sweep (hP x (List.mem_of_getElem? hx)) (h.sound hx hi)
  | collect hc hi => exact h.collect hc hi
  | meet hc hi => exact h.meet hc hi
  | finish hc hl => exact h.finish hc hl
  | halt hc => exact h.halt hc
  | cancel hc hi => exact h.cancel hc hi
  | fail hc _ _ => exact h.fail hc

theorem Reaches.inv (hP : P.Ends) {c : Config σ} (h : P.Reaches c) : P.Inv c := by
  induction h with
  | refl => exact inv_initial
  | tail _ hs ih => exact ih.step hP hs

/-- **All answers** are that of the chains in order, and no chain of an answer was cut
    short. -/
theorem answer_eq (hP : P.Ends) {c : Config σ} (h : P.Reaches c)
    {o : Outcome (List (List State))} (hc : c.caller = .answered o) :
    o = P.inOrder ∧
      ∀ results, o = .finished results →
        c.stages = results.map fun draws => Stage.ended draws false :=
  (h.inv hP).told_of hc

end Pool

end Gibbs
