/-
  Values depend on the names that occur.

  Two look-ups that agree on the names of an expression, or of a statement, give it the same
  value or the same error.

  * `Expr.eval_congr`, `Distribution.eval_congr`: look-ups that agree on the names;
  * `mapM_congr_left`: traversals that agree on every member.
-/
import Gibbs.Proofs.Except
import Gibbs.Distribution.Basic

namespace Gibbs

/-- Traversals that do the same to every member. -/
theorem mapM_congr_left {ε α β : Type} {f g : α → Except ε β} : ∀ {l : List α},
    (∀ a ∈ l, f a = g a) → l.mapM f = l.mapM g
  | [], _ => rfl
  | a :: l, h => by
    rw [List.mapM_cons, List.mapM_cons, h a List.mem_cons_self,
      mapM_congr_left fun b hb => h b (List.mem_cons_of_mem a hb)]

variable {f g : Name → Except Error Value}

theorem Expr.eval_congr {e : Expr} (h : ∀ n ∈ e.names, f n = g n) : e.eval f = e.eval g := by
  simp only [names, List.mem_eraseDups] at h
  induction e with
  | var n => exact h n List.mem_cons_self
  | literal v => rfl
  | bare => rfl
  | unary op e ih => simp only [eval, ih h]
  | binary op l r ihl ihr =>
    simp only [occurrences, List.mem_append] at h
    simp only [eval, ihl fun n hn => h n (.inl hn), ihr fun n hn => h n (.inr hn)]

theorem Distribution.mem_names {d : Distribution} {n : Name} :
    n ∈ d.names ↔ ∃ p ∈ d.parents, n ∈ p.2.names := by
  simp [names, List.mem_eraseDups]

theorem Distribution.eval_congr {d : Distribution} (h : ∀ n ∈ d.names, f n = g n) :
    d.eval f = d.eval g := by
  refine mapM_congr_left fun (k, e) hp => ?_
  have he : e.eval f = e.eval g := Expr.eval_congr fun n hn => h n (mem_names.2 ⟨(k, e), hp, hn⟩)
  simp only [he]

end Gibbs
