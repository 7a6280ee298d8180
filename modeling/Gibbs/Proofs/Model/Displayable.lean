/-
  Which models can be displayed.

  An expression has a text unless the abstract node, or an operation without a symbol, stands
  somewhere in it; how names are written does not matter.

  * `Expr.isDisplayable`, `Expr.render_ok_iff`: expressions that have a text;
  * `Model.IsDisplayable`, `Model.source_ok_iff`: models whose sweep has a source;
  * `Expr.kind_of_render`, `Statement.kind_of_text`, `Model.kind_of_source`: texts that cannot be
    written are errors of one kind;
  * `Expr.compile_ok`, `Statement.compile_ok`: displayable expressions have code once their
    names have places.
-/
import Gibbs.Proofs.Expr.Lookup
import Gibbs.Model.Code
import Gibbs.Model.Source
import Mathlib.Tactic.SplitIfs

namespace Gibbs

/-! ## Expressions -/

/-- Whether an operation on one expression has a symbol. -/
def UnaryOp.isDisplayable : UnaryOp → Bool
  | custom c => c.symbol != ""
  | _ => true

/-- Whether an operation on two expressions has a symbol. -/
def BinaryOp.isDisplayable : BinaryOp → Bool
  | custom c => c.symbol != ""
  | _ => true

/-- Whether an expression has a text. -/
def Expr.isDisplayable : Expr → Bool
  | var _ => true
  | literal _ => true
  | bare => false
  | unary op e => op.isDisplayable && e.isDisplayable
  | binary op l r => op.isDisplayable && l.isDisplayable && r.isDisplayable

theorem UnaryOp.render_ok_iff {op : UnaryOp} (x : String) :
    (∃ t, op.render x = .ok t) ↔ op.isDisplayable = true := by
  cases op with
  | custom c =>
    simp only [render, isDisplayable]
    by_cases h : c.symbol = "" <;> simp [h]
  | sum axis => cases axis <;> exact iff_of_true ⟨_, rfl⟩ rfl
  | _ => exact iff_of_true ⟨_, rfl⟩ rfl

theorem BinaryOp.render_ok_iff {op : BinaryOp} (x y : String) :
    (∃ t, op.render x y = .ok t) ↔ op.isDisplayable = true := by
  cases op with
  | custom c =>
    simp only [render, isDisplayable]
    by_cases h : c.symbol = "" <;> simp [h]
  | _ => exact iff_of_true ⟨_, rfl⟩ rfl

/-- **Displayable expressions** are those that have a text. -/
theorem Expr.render_ok_iff {e : Expr} (f : String → String) :
    (∃ t, e.render f = .ok t) ↔ e.isDisplayable = true := by
  induction e with
  | var n => exact iff_of_true ⟨_, rfl⟩ rfl
  | literal v => exact iff_of_true ⟨_, rfl⟩ rfl
  | bare => exact iff_of_false (fun ⟨_, h⟩ => by cases h) Bool.false_ne_true
  | unary op e ih =>
    rw [isDisplayable, Bool.and_eq_true, ← ih]
    constructor
    · rintro ⟨t, h⟩
      obtain ⟨x, hx, ht⟩ := bind_eq_ok.1 h
      exact ⟨(UnaryOp.render_ok_iff x).1 ⟨t, ht⟩, x, hx⟩
    · rintro ⟨hop, x, hx⟩
      obtain ⟨t, ht⟩ := (UnaryOp.render_ok_iff x).2 hop
      exact ⟨t, bind_eq_ok.2 ⟨x, hx, ht⟩⟩
  | binary op l r ihl ihr =>
    rw [isDisplayable, Bool.and_eq_true, Bool.and_eq_true, ← ihl, ← ihr]
    constructor
    · rintro ⟨t, h⟩
      obtain ⟨x, hx, h⟩ := bind_eq_ok.1 h
      obtain ⟨y, hy, ht⟩ := bind_eq_ok.1 h
      exact ⟨⟨(BinaryOp.render_ok_iff x y).1 ⟨t, ht⟩, x, hx⟩, y, hy⟩
    · rintro ⟨⟨hop, x, hx⟩, y, hy⟩
      obtain ⟨t, ht⟩ := (BinaryOp.render_ok_iff x y).2 hop
      exact ⟨t, bind_eq_ok.2 ⟨x, hx, bind_eq_ok.2 ⟨y, hy, ht⟩⟩⟩

/-! ## Statements and models -/

/-- The expressions on the right of a statement. -/
def Statement.expressions : Statement → List Expr
  | sample _ d => d.parents.map Prod.snd
  | assign _ e => [e]

/-- A statement whose expressions have texts. -/
def Statement.IsDisplayable (st : Statement) : Prop :=
  ∀ e ∈ st.expressions, e.isDisplayable = true

/-- A model whose expressions have texts. -/
def Model.IsDisplayable (m : Model) : Prop := ∀ st ∈ m.statements, st.IsDisplayable

theorem Distribution.render_ok_iff {n : Name} {d : Distribution} (f : String → String) :
    (∃ t, d.render f = .ok t) ↔ (Statement.sample n d).IsDisplayable := by
  rw [Statement.IsDisplayable, Statement.expressions, List.forall_mem_map]
  simp only [← Expr.render_ok_iff f]
  constructor
  · rintro ⟨t, h⟩ p hp
    obtain ⟨args, hargs, -⟩ := bind_eq_ok.1 h
    obtain ⟨arg, -, harg⟩ := exists_mem_of_mapM hargs hp
    obtain ⟨x, hx, -⟩ := bind_eq_ok.1 harg
    exact ⟨x, hx⟩
  · intro h
    obtain ⟨args, hargs⟩ := mapM_ok (f := fun (p : String × Expr) => do
      return p.1 ++ "=" ++ (← p.2.render f)) (l := d.parents) fun p hp => by
        obtain ⟨x, hx⟩ := h p hp
        exact ⟨_, bind_eq_ok.2 ⟨x, hx, rfl⟩⟩
    exact ⟨_, bind_eq_ok.2 ⟨args, hargs, rfl⟩⟩

/-- A statement whose expressions have texts has a text. -/
theorem Statement.text_ok {st : Statement} (h : st.IsDisplayable) : ∃ t, st.text = .ok t := by
  cases st with
  | sample n d =>
    obtain ⟨t, ht⟩ := (Distribution.render_ok_iff id).2 h
    exact ⟨_, bind_eq_ok.2 ⟨t, ht, rfl⟩⟩
  | assign n e =>
    obtain ⟨t, ht⟩ := (Expr.render_ok_iff id).2 (h e (List.mem_singleton_self e))
    exact ⟨_, bind_eq_ok.2 ⟨t, ht, rfl⟩⟩

/-- **The statements that have a text** are those whose expressions have one. -/
theorem Statement.text_ok_iff {st : Statement} : (∃ t, st.text = .ok t) ↔ st.IsDisplayable := by
  refine ⟨fun ⟨t, h⟩ => ?_, text_ok⟩
  cases st with
  | sample n d =>
    obtain ⟨x, hx, -⟩ := bind_eq_ok.1 h
    exact (Distribution.render_ok_iff id).1 ⟨x, hx⟩
  | assign n e =>
    obtain ⟨x, hx, -⟩ := bind_eq_ok.1 h
    exact fun e' he' => List.mem_singleton.1 he' ▸ (Expr.render_ok_iff id).1 ⟨x, hx⟩

theorem Model.sourceLine_ok_iff {m : Model} {st : Statement} :
    (∃ t, m.sourceLine st = .ok t) ↔ st.IsDisplayable := by
  cases st with
  | sample n d =>
    rw [← Distribution.render_ok_iff m.sourceName]
    constructor
    · rintro ⟨t, h⟩
      obtain ⟨x, hx, -⟩ := bind_eq_ok.1 h
      exact ⟨x, hx⟩
    · rintro ⟨x, hx⟩
      exact ⟨_, bind_eq_ok.2 ⟨x, hx, rfl⟩⟩
  | assign n e =>
    simp only [Statement.IsDisplayable, Statement.expressions, List.mem_singleton, forall_eq]
    rw [← Expr.render_ok_iff m.sourceName]
    constructor
    · rintro ⟨t, h⟩
      obtain ⟨x, hx, -⟩ := bind_eq_ok.1 h
      exact ⟨x, hx⟩
    · rintro ⟨x, hx⟩
      exact ⟨_, bind_eq_ok.2 ⟨x, hx, rfl⟩⟩

/-- **The source of a sweep** can be written if and only if all expressions have texts. -/
theorem Model.source_ok_iff {m : Model} : (∃ t, m.source = .ok t) ↔ m.IsDisplayable := by
  constructor
  · rintro ⟨t, h⟩ st hst
    obtain ⟨lines, hlines, -⟩ := bind_eq_ok.1 h
    obtain ⟨line, -, hline⟩ := exists_mem_of_mapM hlines hst
    exact sourceLine_ok_iff.1 ⟨line, hline⟩
  · intro h
    obtain ⟨lines, hlines⟩ := mapM_ok fun st hst => (sourceLine_ok_iff (m := m)).2 (h st hst)
    exact ⟨_, bind_eq_ok.2 ⟨lines, hlines, rfl⟩⟩

/-! ## What has no text -/

theorem UnaryOp.kind_of_render {op : UnaryOp} {x : String} {err : Error}
    (h : op.render x = .error err) : err.kind = .notImplemented := by
  cases op with
  | custom c =>
    simp only [render] at h
    split_ifs at h
    cases h; rfl
  | sum axis => cases axis <;> cases h
  | _ => cases h

theorem BinaryOp.kind_of_render {op : BinaryOp} {x y : String} {err : Error}
    (h : op.render x y = .error err) : err.kind = .notImplemented := by
  cases op with
  | custom c =>
    simp only [render] at h
    split_ifs at h
    cases h; rfl
  | _ => cases h

/-- **A text that cannot be written** is an error of one kind. -/
theorem Expr.kind_of_render {f : String → String} {e : Expr} {err : Error}
    (h : e.render f = .error err) : err.kind = .notImplemented := by
  induction e with
  | var n => cases h
  | literal v => cases h
  | bare => cases h; rfl
  | unary op e ih =>
    rcases bind_eq_error.1 h with h | ⟨x, -, h⟩
    · exact ih h
    · exact op.kind_of_render h
  | binary op l r ihl ihr =>
    rcases bind_eq_error.1 h with h | ⟨x, -, h⟩
    · exact ihl h
    rcases bind_eq_error.1 h with h | ⟨y, -, h⟩
    · exact ihr h
    · exact op.kind_of_render h

theorem Distribution.kind_of_render {f : String → String} {d : Distribution} {err : Error}
    (h : d.render f = .error err) : err.kind = .notImplemented := by
  rcases bind_eq_error.1 h with h | ⟨args, -, h⟩
  · obtain ⟨p, -, hp⟩ := mapM_eq_error h
    rcases bind_eq_error.1 hp with hp | ⟨x, -, hp⟩
    · exact Expr.kind_of_render hp
    · cases hp
  · cases h

theorem Statement.kind_of_text {st : Statement} {err : Error} (h : st.text = .error err) :
    err.kind = .notImplemented := by
  cases st with
  | sample n d =>
    rcases bind_eq_error.1 h with h | ⟨t, -, h⟩
    · exact Distribution.kind_of_render h
    · cases h
  | assign n e =>
    rcases bind_eq_error.1 h with h | ⟨t, -, h⟩
    · exact Expr.kind_of_render h
    · cases h

theorem Model.kind_of_sourceLine {m : Model} {st : Statement} {err : Error}
    (h : m.sourceLine st = .error err) : err.kind = .notImplemented := by
  cases st with
  | sample n d =>
    rcases bind_eq_error.1 h with h | ⟨t, -, h⟩
    · exact Distribution.kind_of_render h
    · cases h
  | assign n e =>
    rcases bind_eq_error.1 h with h | ⟨t, -, h⟩
    · exact Expr.kind_of_render h
    · cases h

theorem Model.kind_of_source {m : Model} {err : Error} (h : m.source = .error err) :
    err.kind = .notImplemented := by
  rcases bind_eq_error.1 h with h | ⟨lines, -, h⟩
  · obtain ⟨st, -, hst⟩ := mapM_eq_error h
    exact kind_of_sourceLine hst
  · cases h

/-! ## Code -/

/-- **Displayable expressions have code** once their names have places. -/
theorem Expr.compile_ok {place? : Name → Option Place} {e : Expr} (h : e.isDisplayable = true)
    (hp : ∀ n ∈ e.occurrences, (place? n).isSome = true) : ∃ c, e.compile place? = .ok c := by
  induction e with
  | var n =>
    obtain ⟨p, hn⟩ := Option.isSome_iff_exists.1 (hp n (List.mem_singleton_self _))
    refine ⟨.read p, ?_⟩
    rw [compile, hn]
  | literal v => exact ⟨_, rfl⟩
  | bare => cases h
  | unary op e ih =>
    simp only [isDisplayable, Bool.and_eq_true] at h
    obtain ⟨c, hc⟩ := ih h.2 hp
    exact ⟨_, bind_eq_ok.2 ⟨c, hc, rfl⟩⟩
  | binary op l r ihl ihr =>
    simp only [isDisplayable, Bool.and_eq_true] at h
    obtain ⟨c, hc⟩ := ihl h.1.2 fun n hn => hp n (List.mem_append_left _ hn)
    obtain ⟨d, hd⟩ := ihr h.2 fun n hn => hp n (List.mem_append_right _ hn)
    exact ⟨_, bind_eq_ok.2 ⟨c, hc, bind_eq_ok.2 ⟨d, hd, rfl⟩⟩⟩

theorem Statement.compile_ok {place? : Name → Option Place} {st : Statement}
    (h : st.IsDisplayable) (hp : ∀ n ∈ st.names, (place? n).isSome = true) :
    ∃ i, st.compile place? = .ok i := by
  cases st with
  | sample n d =>
    obtain ⟨params, hps⟩ := mapM_ok (f := fun (p : String × Expr) => do
      return (p.1, ← p.2.compile place?)) (l := d.parents) fun p hmem => by
        obtain ⟨c, hc⟩ := Expr.compile_ok (h p.2 (List.mem_map_of_mem hmem)) fun x hx =>
          hp x (Distribution.mem_names.2 ⟨p, hmem, List.mem_eraseDups.2 hx⟩)
        exact ⟨_, bind_eq_ok.2 ⟨c, hc, rfl⟩⟩
    exact ⟨_, bind_eq_ok.2 ⟨params, hps, rfl⟩⟩
  | assign n e =>
    obtain ⟨c, hc⟩ := Expr.compile_ok (h e (List.mem_singleton_self e)) fun x hx =>
      hp x (List.mem_eraseDups.2 hx)
    exact ⟨_, bind_eq_ok.2 ⟨c, hc, rfl⟩⟩

end Gibbs
