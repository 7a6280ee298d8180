/-
  The words of a text are its maximal runs.

  A run is a stretch of characters that do not separate, as long as it can be: it begins with
  the text or behind a separator, and ends with the text or in front of one.  Reading the words
  of a text lists its runs from left to right, and a text that is put together from words and
  gaps has the words that it was put together from.

  * `Text.IsRun`: a maximal run, by the places where it begins and ends;
  * `isRun_front`, `isRun_behind`: the runs in front of a separator and behind it;
  * `Text.ListsRuns`: all runs in order; `ListsRuns.behind`: those of a text with a separator;
  * `words_eq_runs`: the words are the runs;
  * `words_spread`: words are read back from a text with gaps between them.
-/
import Gibbs.Text.Blank
import Mathlib.Data.List.Basic

namespace Gibbs.Text

variable {separates : Char → Bool}

/-! ## Runs -/

/-- A maximal run of characters that do not separate, from the place `i` up to the place `j`. -/
structure IsRun (separates : Char → Bool) (text : List Char) (i j : Nat) : Prop where
  lt : i < j
  le : j ≤ text.length
  inside : ∀ k c, i ≤ k → k < j → text[k]? = some c → separates c = false
  front : ∀ k c, k + 1 = i → text[k]? = some c → separates c = true
  back : ∀ c, text[j]? = some c → separates c = true

/-- The characters between two places. -/
def slice (text : List Char) (r : Nat × Nat) : List Char := (text.drop r.1).take (r.2 - r.1)

/-- All runs of a text, from left to right. -/
structure ListsRuns (separates : Char → Bool) (text : List Char) (runs : List (Nat × Nat)) :
    Prop where
  ordered : runs.Pairwise fun r s => r.2 < s.1
  mem_iff : ∀ i j, (i, j) ∈ runs ↔ IsRun separates text i j

/-- Two places, counted from `n` characters further to the left. -/
def shift (n : Nat) (r : Nat × Nat) : Nat × Nat := (n + r.1, n + r.2)

theorem slice_append (front text : List Char) (r : Nat × Nat) :
    slice (front ++ text) (shift front.length r) = slice text r := by
  simp only [slice, shift, List.drop_append, Nat.add_sub_add_left, Nat.add_sub_cancel_left,
    List.drop_eq_nil_of_le (Nat.le_add_right _ _), List.nil_append]

/-- **In front of a separator** there is one run, if there is anything. -/
theorem isRun_front {front text : List Char} (hfront : ∀ c ∈ front, separates c = false)
    (htext : ∀ c, text.head? = some c → separates c = true) {i j : Nat} (hi : i ≤ front.length) :
    IsRun separates (front ++ text) i j ↔ front ≠ [] ∧ i = 0 ∧ j = front.length := by
  have hget : ∀ k c, k < front.length → (front ++ text)[k]? = some c → separates c = false := by
    intro k c hk hc
    rw [List.getElem?_append_left hk] at hc
    exact hfront c (List.mem_of_getElem? hc)
  have hend : (front ++ text)[front.length]? = text.head? := by
    rw [List.getElem?_append_right (Nat.le_refl _), Nat.sub_self, List.head?_eq_getElem?]
  constructor
  · intro h
    have hlength : (front ++ text).length = front.length + text.length := List.length_append
    have hi0 : i = 0 := by
      rcases Nat.eq_zero_or_pos i with hi0 | hpos
      · exact hi0
      · have hk : i - 1 < (front ++ text).length := by have := h.lt; have := h.le; omega
        have hc := List.getElem?_eq_getElem hk
        have htrue := h.front (i - 1) _ (by omega) hc
        rw [hget (i - 1) _ (by omega) hc] at htrue
        cases htrue
    have hjle : j ≤ front.length := by
      by_contra hj
      have hk : front.length < (front ++ text).length := by have := h.le; omega
      have hc := List.getElem?_eq_getElem hk
      have hfalse := h.inside _ _ hi (by omega) hc
      rw [htext _ (hend ▸ hc)] at hfalse
      cases hfalse
    have hjge : front.length ≤ j := by
      by_contra hj
      have hk : j < (front ++ text).length := by omega
      have hc := List.getElem?_eq_getElem hk
      have htrue := h.back _ hc
      rw [hget j _ (by omega) hc] at htrue
      cases htrue
    have hpos : 0 < front.length := by have := h.lt; omega
    exact ⟨List.ne_nil_of_length_pos hpos, hi0, Nat.le_antisymm hjle hjge⟩
  · rintro ⟨hne, rfl, rfl⟩
    refine ⟨List.length_pos_iff.2 hne, by simp, fun k c _ hk hc => hget k c hk hc, nofun, ?_⟩
    intro c hc
    exact htext c (hend ▸ hc)

/-- **Behind a separator** the runs are those of the text there. -/
theorem isRun_behind {front text : List Char} {c : Char} (hc : separates c = true) {i j : Nat} :
    IsRun separates (front ++ c :: text) (front.length + 1 + i) (front.length + 1 + j) ↔
      IsRun separates text i j := by
  have hget : ∀ k, (front ++ c :: text)[front.length + 1 + k]? = text[k]? := fun k => by
    rw [List.getElem?_append_right (by omega), Nat.add_assoc, Nat.add_sub_cancel_left,
      Nat.add_comm 1 k, List.getElem?_cons_succ]
  have hlength : (front ++ c :: text).length = front.length + 1 + text.length := by
    rw [List.length_append, List.length_cons]
    omega
  constructor
  · rintro ⟨hlt, hle, hinside, hfront, hback⟩
    refine ⟨by omega, by omega, fun k d hi hj hd => ?_, fun k d hk hd => ?_, fun d hd => ?_⟩
    · exact hinside _ d (by omega) (by omega) ((hget k).trans hd)
    · exact hfront _ d (by omega) ((hget k).trans hd)
    · exact hback d ((hget j).trans hd)
  · rintro ⟨hlt, hle, hinside, hfront, hback⟩
    refine ⟨by omega, by omega, fun k d hi hj hd => ?_, fun k d hk hd => ?_, fun d hd => ?_⟩
    · obtain ⟨k, rfl⟩ := Nat.exists_eq_add_of_le (Nat.le_of_add_right_le hi)
      exact hinside k d (by omega) (by omega) ((hget k).symm.trans hd)
    · -- the character in front of the run is the separator, or one behind it
      rcases Nat.eq_zero_or_pos i with rfl | hi
      · obtain rfl : k = front.length := by omega
        rw [List.getElem?_append_right (Nat.le_refl _), Nat.sub_self] at hd
        cases hd
        exact hc
      · obtain ⟨k, rfl⟩ := Nat.exists_eq_add_of_le (show front.length + 1 ≤ k by omega)
        exact hfront k d (by omega) ((hget k).symm.trans hd)
    · exact hback d ((hget j).symm.trans hd)

/-! ## Words -/

/-- The places of the word being read, if there is one. -/
def currentRun (current : List Char) : List (Nat × Nat) :=
  if current.isEmpty then [] else [(0, current.length)]

theorem mem_currentRun {current : List Char} {i j : Nat} :
    (i, j) ∈ currentRun current ↔ current ≠ [] ∧ i = 0 ∧ j = current.length := by
  cases current <;> simp [currentRun]

theorem map_slice_currentRun (current text : List Char) :
    (currentRun current).map (slice (current ++ text)) = wordsFrom separates current [] := by
  cases current <;> simp [currentRun, slice, wordsFrom]

theorem wordsFrom_cons_of_separates {c : Char} (hc : separates c = true)
    (current text : List Char) :
    wordsFrom separates current (c :: text)
      = wordsFrom separates current [] ++ wordsFrom separates [] text := by
  cases current <;> simp [wordsFrom, hc]

theorem pairwise_currentRun (current : List Char) :
    (currentRun current).Pairwise fun r s => r.2 < s.1 := by
  unfold currentRun
  split <;> simp

/-- A text without a separator is one run, if it is anything. -/
theorem listsRuns_currentRun {current : List Char} (h : ∀ c ∈ current, separates c = false) :
    ListsRuns separates current (currentRun current) := by
  refine ⟨pairwise_currentRun current, fun i j => ?_⟩
  have hfront : i ≤ current.length →
      (IsRun separates current i j ↔ current ≠ [] ∧ i = 0 ∧ j = current.length) := fun hi => by
    simpa using @isRun_front separates current [] h (by simp) i j hi
  rw [mem_currentRun]
  constructor
  · rintro ⟨hne, rfl, rfl⟩
    exact (hfront (Nat.zero_le _)).2 ⟨hne, rfl, rfl⟩
  · intro hrun
    exact (hfront (Nat.le_trans (Nat.le_of_lt hrun.lt) hrun.le)).1 hrun

/-- **A separator** comes between a run in front of it and the runs behind it. -/
theorem ListsRuns.behind {current text : List Char} {c : Char} {runs : List (Nat × Nat)}
    (h : ∀ d ∈ current, separates d = false) (hc : separates c = true)
    (hruns : ListsRuns separates text runs) :
    ListsRuns separates (current ++ c :: text)
      (currentRun current ++ runs.map (shift (current.length + 1))) := by
  have hhead : ∀ d, (c :: text).head? = some d → separates d = true := by
    rintro d ⟨⟩
    exact hc
  constructor
  · rw [List.pairwise_append, List.pairwise_map]
    refine ⟨pairwise_currentRun current,
      hruns.ordered.imp fun {r s} hrs => Nat.add_lt_add_left hrs _, ?_⟩
    rintro ⟨i, j⟩ hr s hs
    obtain ⟨-, -, rfl⟩ := mem_currentRun.1 hr
    obtain ⟨r, -, rfl⟩ := List.mem_map.1 hs
    show current.length < current.length + 1 + r.1
    omega
  · intro i j
    rw [List.mem_append, mem_currentRun, List.mem_map]
    constructor
    · rintro (⟨hne, rfl, rfl⟩ | ⟨⟨i', j'⟩, hr, heq⟩)
      · exact (isRun_front h hhead (Nat.zero_le _)).2 ⟨hne, rfl, rfl⟩
      · cases heq
        exact (isRun_behind hc).2 ((hruns.mem_iff i' j').1 hr)
    · intro hrun
      rcases Nat.lt_or_ge current.length i with hi | hi
      · have hlt := hrun.lt
        obtain ⟨i, rfl⟩ := Nat.exists_eq_add_of_lt hi
        obtain ⟨j, rfl⟩ := Nat.exists_eq_add_of_le (show current.length + 1 ≤ j by omega)
        rw [show current.length + i + 1 = current.length + 1 + i by omega] at hrun ⊢
        exact .inr ⟨(i, j), (hruns.mem_iff i j).2 ((isRun_behind hc).1 hrun), rfl⟩
      · exact .inl ((isRun_front h hhead hi).1 hrun)

/-- **What is read behind the word being read** lists the runs of both. -/
theorem wordsFrom_eq_runs {current text : List Char} (h : ∀ c ∈ current, separates c = false) :
    ∃ runs, ListsRuns separates (current ++ text) runs ∧
      wordsFrom separates current text = runs.map (slice (current ++ text)) := by
  induction text generalizing current with
  | nil =>
    refine ⟨currentRun current, ?_, (map_slice_currentRun current []).symm⟩
    rw [List.append_nil]
    exact listsRuns_currentRun h
  | cons c text ih =>
    cases hc : separates c with
    | true =>
      obtain ⟨runs, hruns, hwords⟩ := @ih [] nofun
      refine ⟨_, hruns.behind h hc, ?_⟩
      rw [wordsFrom_cons_of_separates hc, List.map_append, map_slice_currentRun, hwords,
        List.map_map]
      refine congrArg _ (List.map_congr_left fun r _ => ?_)
      have hslice := slice_append (current ++ [c]) text r
      rw [List.append_assoc, List.length_append] at hslice
      exact hslice.symm
    | false =>
      obtain ⟨runs, hruns, hwords⟩ := @ih (current ++ [c]) fun d hd =>
        (List.mem_append.1 hd).elim (h d) fun hd => by rw [List.mem_singleton.1 hd, hc]
      rw [List.append_assoc] at hruns hwords
      refine ⟨runs, hruns, ?_⟩
      rw [wordsFrom, if_neg (by rw [hc]; exact Bool.false_ne_true)]
      exact hwords

/-- **The words of a text** are its runs, from left to right. -/
theorem words_eq_runs (separates : Char → Bool) (text : List Char) :
    ∃ runs, ListsRuns separates text runs ∧ words separates text = runs.map (slice text) :=
  @wordsFrom_eq_runs separates [] text nofun

/-! ## Words with gaps between them -/

/-- A text that begins with a gap and goes on with words, each with a gap behind it. -/
def spread (lead : List Char) (parts : List (List Char × List Char)) : List Char :=
  lead ++ parts.flatMap fun p => p.1 ++ p.2

theorem wordsFrom_gap {gap : List Char} (h : ∀ c ∈ gap, separates c = true) (text : List Char) :
    wordsFrom separates [] (gap ++ text) = wordsFrom separates [] text := by
  induction gap with
  | nil => rfl
  | cons c gap ih =>
    obtain ⟨hc, hgap⟩ := List.forall_mem_cons.1 h
    rw [List.cons_append, wordsFrom_cons_of_separates hc, ih hgap]
    rfl

theorem wordsFrom_word {w : List Char} (h : ∀ c ∈ w, separates c = false)
    (current text : List Char) :
    wordsFrom separates current (w ++ text) = wordsFrom separates (current ++ w) text := by
  induction w generalizing current with
  | nil => simp
  | cons c w ih =>
    obtain ⟨hc, hw⟩ := List.forall_mem_cons.1 h
    rw [List.cons_append, wordsFrom, if_neg (by rw [hc]; exact Bool.false_ne_true), ih hw,
      List.append_assoc, List.singleton_append]

/-- **Words with gaps between them** are read back. -/
theorem words_spread {lead : List Char} {parts : List (List Char × List Char)}
    (hlead : ∀ c ∈ lead, separates c = true)
    (hwords : ∀ p ∈ parts, p.1 ≠ [] ∧ ∀ c ∈ p.1, separates c = false)
    (hgaps : ∀ p ∈ parts, ∀ c ∈ p.2, separates c = true)
    (hinner : ∀ p ∈ parts.dropLast, p.2 ≠ []) :
    words separates (spread lead parts) = parts.map Prod.fst := by
  rw [words, spread, wordsFrom_gap hlead]
  induction parts with
  | nil => rfl
  | cons p parts ih =>
    obtain ⟨w, gap⟩ := p
    obtain ⟨⟨hne, hw⟩, hrest⟩ := List.forall_mem_cons.1 hwords
    obtain ⟨hgap, hlater⟩ := List.forall_mem_cons.1 hgaps
    have hend : wordsFrom separates w [] = [w] := by
      rw [wordsFrom, if_neg (by simpa using hne)]
    rw [List.flatMap_cons, List.append_assoc, wordsFrom_word hw, List.nil_append, List.map_cons]
    cases gap with
    | nil =>
      -- only the last word may have no gap behind it
      obtain rfl : parts = [] := by
        by_contra hparts
        rw [List.dropLast_cons_of_ne_nil hparts] at hinner
        exact hinner _ List.mem_cons_self rfl
      exact hend
    | cons c gap =>
      obtain ⟨hc, hgap⟩ := List.forall_mem_cons.1 hgap
      rw [List.cons_append, wordsFrom_cons_of_separates hc, hend, wordsFrom_gap hgap]
      refine congrArg _ (ih hrest hlater fun q hq => hinner q ?_)
      cases parts with
      | nil => cases hq
      | cons q' parts => exact List.mem_cons_of_mem _ hq

end Gibbs.Text
