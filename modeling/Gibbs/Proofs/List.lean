/-
  Lists: repetitions, first occurrences and places.

  * `nodup_eraseDups`, `pairwise_eraseDups`, `find?_eraseDups`: lists whose repetitions are
    erased;
  * `lookup_zip`, `map_getElem?_range`: members by their places;
  * `filter_range_lt`: the first ones of the first numbers;
  * `zip_replicate_length`: a list zipped with as many copies of something;
  * `append_cons_inj`: lists split at the first occurrence of a member;
  * `span_append`: the longest front whose members have a property;
  * `intercalate_cons`: lists joined with a separator;
  * `eraseDups_map`, `lookup_map`, `idxOf_map`: lists whose members are renamed.
-/
import Mathlib.Data.List.Basic
import Mathlib.Data.List.TakeDrop

namespace Gibbs

/-- **Erasing repetitions** leaves none. -/
theorem nodup_eraseDups {α : Type} [BEq α] [LawfulBEq α] : ∀ l : List α, l.eraseDups.Nodup
  | [] => List.nodup_nil
  | a :: l => by
    rw [List.eraseDups_cons, List.nodup_cons]
    refine ⟨fun h => ?_, nodup_eraseDups _⟩
    simpa using (List.mem_filter.1 (List.mem_eraseDups.1 h)).2
termination_by l => l.length
decreasing_by exact Nat.lt_succ_of_le (List.length_filter_le _ l)

/-- The order of first occurrences does not depend on what is filtered out. -/
theorem idxOf_lt_of_filter {α : Type} [BEq α] [LawfulBEq α] {p : α → Bool} {a b : α}
    (ha : p a = true) (hb : p b = true) : ∀ {l : List α},
    (l.filter p).idxOf a < (l.filter p).idxOf b → l.idxOf a < l.idxOf b
  | [], h => absurd h (Nat.lt_irrefl 0)
  | c :: l, h => by
    have ih := idxOf_lt_of_filter ha hb (l := l)
    by_cases hca : c = a
    · subst hca
      by_cases hcb : c = b
      · subst hcb
        exact absurd h (Nat.lt_irrefl _)
      · rw [List.idxOf_cons_self, List.idxOf_cons_ne l hcb]
        exact Nat.succ_pos _
    · cases hc : p c with
      | false =>
        have hcb : c ≠ b := by
          rintro rfl
          rw [hb] at hc; cases hc
        rw [List.filter_cons_of_neg (by simp [hc])] at h
        rw [List.idxOf_cons_ne l hca, List.idxOf_cons_ne l hcb]
        exact Nat.succ_lt_succ (ih h)
      | true =>
        rw [List.filter_cons_of_pos hc, List.idxOf_cons_ne _ hca] at h
        by_cases hcb : c = b
        · subst hcb
          rw [List.idxOf_cons_self] at h
          exact absurd h (Nat.not_lt_zero _)
        · rw [List.idxOf_cons_ne _ hcb] at h
          rw [List.idxOf_cons_ne l hca, List.idxOf_cons_ne l hcb]
          exact Nat.succ_lt_succ (ih (Nat.lt_of_succ_lt_succ h))

/-- **Erasing repetitions** keeps the order of first occurrences. -/
theorem pairwise_eraseDups {α : Type} [BEq α] [LawfulBEq α] :
    ∀ l : List α, l.eraseDups.Pairwise fun a b => l.idxOf a < l.idxOf b
  | [] => .nil
  | c :: l => by
    have hne : ∀ a ∈ (l.filter fun b => !b == c).eraseDups, (!a == c) = true := fun a ha =>
      (List.mem_filter.1 (List.mem_eraseDups.1 ha)).2
    have hidx : ∀ a, (!a == c) = true → (c :: l).idxOf a = l.idxOf a + 1 := fun a ha =>
      List.idxOf_cons_ne l fun h => by simp [h] at ha
    rw [List.eraseDups_cons, List.pairwise_cons]
    refine ⟨fun a ha => ?_, (pairwise_eraseDups _).imp_of_mem fun {a b} ha hb h => ?_⟩
    · rw [List.idxOf_cons_self, hidx a (hne a ha)]
      exact Nat.succ_pos _
    · rw [hidx a (hne a ha), hidx b (hne b hb)]
      exact Nat.succ_lt_succ
        (idxOf_lt_of_filter (p := fun b => !b == c) (hne a ha) (hne b hb) h)
termination_by l => l.length
decreasing_by exact Nat.lt_succ_of_le (List.length_filter_le _ l)

/-- The first member with a property does not depend on repetitions. -/
theorem find?_eraseDups {α : Type} [BEq α] [LawfulBEq α] (p : α → Bool) :
    ∀ l : List α, l.eraseDups.find? p = l.find? p
  | [] => rfl
  | a :: l => by
    rw [List.eraseDups_cons, List.find?_cons, List.find?_cons]
    cases ha : p a with
    | true => rfl
    | false =>
      have hp : ∀ b, (decide ((!b == a) = true ∧ p b = true)) = p b := by
        intro b
        by_cases hb : b = a
        · simp [hb, ha]
        · simp [hb]
      rw [find?_eraseDups p, List.find?_filter, funext hp]
termination_by l => l.length
decreasing_by exact Nat.lt_succ_of_le (List.length_filter_le _ l)

theorem lookup_zip {α β : Type} [BEq α] [LawfulBEq α] (n : α) : ∀ {ks : List α} {vs : List β},
    vs.length = ks.length → (ks.zip vs).lookup n = vs[ks.idxOf n]?
  | [], [], _ => rfl
  | k :: ks, v :: vs, h => by
    by_cases hk : k = n
    · subst hk; simp
    · have hb : (n == k) = false := by simpa using fun e : n = k => hk e.symm
      have hb' : (k == n) = false := by simpa using hk
      simp only [List.zip_cons_cons, List.lookup_cons, hb, List.idxOf_cons, hb', cond_false,
        List.getElem?_cons_succ]
      exact lookup_zip n (Nat.succ.inj h)

theorem map_getElem?_range {α : Type} (l : List α) :
    (List.range l.length).map (fun d => l[d]?) = l.map some := by
  refine List.ext_getElem (by simp) fun i h₁ h₂ => ?_
  have hi : i < l.length := by simpa using h₂
  simp [hi]

theorem filter_range_lt {m k : Nat} (h : m ≤ k) :
    (List.range k).filter (fun i => decide (i < m)) = List.range m := by
  obtain ⟨more, rfl⟩ := Nat.exists_eq_add_of_le h
  rw [List.range_add, List.filter_append, List.filter_eq_self.2, List.filter_eq_nil_iff.2,
    List.append_nil]
  · intro i hi
    obtain ⟨j, -, rfl⟩ := List.mem_map.1 hi
    simp
  · exact fun i hi => decide_eq_true (List.mem_range.1 hi)

theorem zip_replicate_length {α β : Type} (a : α) (l : List β) :
    (List.replicate l.length a).zip l = l.map fun b => (a, b) := by
  have h : (l.map fun _ => a).zip (l.map id) = l.map fun b => (a, b) := List.zip_map'
  rwa [List.map_id, List.map_const'] at h

theorem headD_map {α β : Type} {f : α → β} {l : List α} {b d : β} (hne : l ≠ [])
    (h : ∀ a ∈ l, f a = b) : (l.map f).headD d = b := by
  cases l with
  | nil => exact absurd rfl hne
  | cons a l => exact h a List.mem_cons_self

/-- Two lists split at the first occurrence of a member. -/
theorem append_cons_inj {α : Type} {c : α} : ∀ {a b x y : List α}, c ∉ a → c ∉ b →
    a ++ c :: x = b ++ c :: y → a = b ∧ x = y
  | [], [], x, y, _, _, h => ⟨rfl, (List.cons.inj h).2⟩
  | [], d :: b, x, y, _, hb, h => absurd ((List.cons.inj h).1 ▸ List.mem_cons_self) hb
  | d :: a, [], x, y, ha, _, h => absurd ((List.cons.inj h).1 ▸ List.mem_cons_self) ha
  | d :: a, e :: b, x, y, ha, hb, h => by
    simp only [List.cons_append, List.cons.injEq] at h
    obtain ⟨rfl, h⟩ := h
    obtain ⟨rfl, rfl⟩ := append_cons_inj (fun hc => ha (List.mem_cons_of_mem d hc))
      (fun hc => hb (List.mem_cons_of_mem d hc)) h
    exact ⟨rfl, rfl⟩

/-- A front whose members have a property, up to a member that does not have it. -/
theorem span_append {α : Type} {p : α → Bool} {l s : List α} (hl : ∀ a ∈ l, p a = true)
    (hs : ∀ a t, s = a :: t → p a = false) : (l ++ s).span p = (l, s) := by
  rw [List.span_eq_takeWhile_dropWhile, List.takeWhile_append_of_pos hl,
    List.dropWhile_append_of_pos hl]
  cases s with
  | nil => simp
  | cons a t => simp [hs a t rfl]

theorem splitOn_of_not_mem {α : Type} [BEq α] [LawfulBEq α] {a : α} {l : List α} (h : a ∉ l) :
    l.splitOn a = [l] := by
  have hall : ∀ m ∈ [l], a ∉ m := List.forall_mem_singleton.2 h
  have hsplit := List.splitOn_intercalate a hall (List.cons_ne_nil _ _)
  rwa [List.intercalate_singleton] at hsplit

theorem intercalate_cons {α : Type} (sep x : List α) : ∀ xs : List (List α),
    sep.intercalate (x :: xs) = x ++ xs.flatMap (sep ++ ·)
  | [] => by simp
  | y :: xs => by
    rw [List.intercalate_cons_cons, intercalate_cons sep y xs]
    simp

theorem not_mem_intercalate {α : Type} {a : α} {sep : List α} {xs : List (List α)}
    (hsep : a ∉ sep) (h : ∀ x ∈ xs, a ∉ x) : a ∉ sep.intercalate xs := by
  cases xs with
  | nil => simp
  | cons x xs =>
    obtain ⟨hx, hxs⟩ := List.forall_mem_cons.1 h
    rw [intercalate_cons, List.mem_append, List.mem_flatMap, not_or]
    refine ⟨hx, ?_⟩
    rintro ⟨y, hy, ha⟩
    exact (List.mem_append.1 ha).elim hsep (hxs y hy)

theorem length_le_flatMap {α β : Type} {f : α → List β} : ∀ {l : List α}, (∀ a ∈ l, f a ≠ []) →
    l.length ≤ (l.flatMap f).length
  | [], _ => Nat.le_refl 0
  | a :: l, h => by
    obtain ⟨ha, hl⟩ := List.forall_mem_cons.1 h
    have ih := length_le_flatMap hl
    have hpos := List.length_pos_iff.2 ha
    rw [List.flatMap_cons, List.length_append, List.length_cons]
    omega

/-! ## Renamed members -/

section
variable {α β γ : Type} [BEq α] [LawfulBEq α] [BEq β] [LawfulBEq β] {f : α → β}

theorem beq_map (hf : Function.Injective f) (a b : α) : (f a == f b) = (a == b) := by
  rw [Bool.eq_iff_iff, beq_iff_eq, beq_iff_eq, hf.eq_iff]

theorem contains_map (hf : Function.Injective f) (a : α) (l : List α) :
    (l.map f).contains (f a) = l.contains a := by
  rw [Bool.eq_iff_iff, List.contains_iff_mem, List.contains_iff_mem,
    List.mem_map_of_injective hf]

theorem eraseDups_map (hf : Function.Injective f) :
    ∀ l : List α, (l.map f).eraseDups = l.eraseDups.map f
  | [] => rfl
  | a :: l => by
    have hp : (fun b => !b == f a) ∘ f = fun b => !b == a :=
      funext fun b => congrArg not (beq_map hf b a)
    rw [List.map_cons, List.eraseDups_cons, List.eraseDups_cons, List.filter_map, hp,
      eraseDups_map hf, List.map_cons]
termination_by l => l.length
decreasing_by exact Nat.lt_succ_of_le (List.length_filter_le _ l)

theorem lookup_map (hf : Function.Injective f) (a : α) : ∀ l : List (α × γ),
    (l.map fun p => (f p.1, p.2)).lookup (f a) = l.lookup a
  | [] => rfl
  | p :: l => by
    rw [List.map_cons, List.lookup_cons, List.lookup_cons, beq_map hf, lookup_map hf a l]

theorem idxOf_map (hf : Function.Injective f) (a : α) : ∀ l : List α,
    (l.map f).idxOf (f a) = l.idxOf a
  | [] => rfl
  | b :: l => by
    rw [List.map_cons, List.idxOf_cons, List.idxOf_cons, beq_map hf, idxOf_map hf a l]

end

end Gibbs
