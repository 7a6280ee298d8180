/-
  Intermediate values can be inlined.

  The assignment `z = e` may be left out, and `e` be put for `z` everywhere, if nothing else
  assigns `z` and no name of `e` gets a new value between the assignment and a later
  statement that refers to `z`.  The shorter model is accepted too, and a sweep that succeeds
  in the longer one has the same result in it.

  * `Statement.replace`, `Statement.rebuilt`: statements with an expression for a variable;
  * `Statement.run_replace`: what such a statement does;
  * `Model.Inlines`, `Model.inlined`: when an assignment can be left out, and the model
    without it;
  * `exists_compiled_inlined`: the model without it is accepted;
  * `Frame.Inlines`, `runAll_inlined`: the frames of the two sweeps after the assignment;
  * `inlined_sweep`: sweeps with and without the assignment.
-/
import Gibbs.Proofs.Expr.Replace
import Gibbs.Proofs.Model.Acceptance
import Gibbs.Proofs.Model.Update
import Gibbs.Proofs.Stream.Sampling

namespace Gibbs

variable {σ : Type}

/-! ## Statements -/

namespace Statement

/-- The statement with an expression for every variable. -/
def replace (g : Name → Expr) : Statement → Statement
  | sample n d => sample n (d.replace g)
  | assign n e => assign n (e.replace g)

/-- The statement with an expression for every variable, its distribution built anew. -/
def rebuilt (g : Name → Expr) : Statement → Except Error Statement
  | sample n d => do return sample n (← d.rebuilt g)
  | assign n e => .ok (assign n (e.replace g))

/-- A statement whose distribution, if it has one, was built from operands. -/
def IsBuilt : Statement → Prop
  | sample _ d => d.IsBuilt
  | assign _ _ => True

variable {g : Name → Expr}

@[simp] theorem sampled?_replace (st : Statement) : (st.replace g).sampled? = st.sampled? := by
  cases st <;> rfl

@[simp] theorem assigned?_replace (st : Statement) : (st.replace g).assigned? = st.assigned? := by
  cases st <;> rfl

theorem rebuilt_eq {st st' : Statement} (hst : st.IsBuilt) (h : st.rebuilt g = .ok st') :
    st' = st.replace g := by
  cases st with
  | sample n d =>
    obtain ⟨d', hd, h⟩ := bind_eq_ok.1 h
    cases h
    exact congrArg (sample n) (Distribution.rebuilt_eq hst hd)
  | assign n e => cases h; rfl

theorem mem_names_replace {st : Statement} {n : Name} :
    n ∈ (st.replace g).names ↔ ∃ x ∈ st.names, n ∈ (g x).names := by
  cases st with
  | sample x d =>
    simp only [replace, names, Distribution.mem_names, Distribution.replace, List.mem_map]
    constructor
    · rintro ⟨_, ⟨p, hp, rfl⟩, hn⟩
      obtain ⟨y, hy, hn⟩ := Expr.mem_names_replace.1 hn
      exact ⟨y, ⟨p, hp, hy⟩, hn⟩
    · rintro ⟨y, ⟨p, hp, hy⟩, hn⟩
      exact ⟨_, ⟨p, hp, rfl⟩, Expr.mem_names_replace.2 ⟨y, hy, hn⟩⟩
  | assign x e => exact Expr.mem_names_replace

theorem isDisplayable_replace {st : Statement} (h : st.IsDisplayable)
    (hg : ∀ n, (g n).isDisplayable = true) : (st.replace g).IsDisplayable := by
  cases st with
  | sample n d =>
    intro e he
    obtain ⟨q, hq, rfl⟩ := List.mem_map.1 he
    obtain ⟨p, hp, rfl⟩ : ∃ p ∈ d.parents, (p.1, p.2.replace g) = q := List.mem_map.1 hq
    exact Expr.isDisplayable_replace (h p.2 (List.mem_map_of_mem hp)) fun n _ => hg n
  | assign n e =>
    intro e' he'
    rw [List.mem_singleton.1 he']
    exact Expr.isDisplayable_replace (h e (List.mem_singleton_self e)) fun n _ => hg n

@[simp] theorem update_replace (st : Statement) : (st.replace g).update = st.update := by
  cases st <;> rfl

theorem result_replace {m m' : Model} (draw : Drawing σ) {f f' : Frame} {st : Statement}
    (h : ∀ n ∈ st.names, (g n).eval (m'.valueOf f') = m.valueOf f n) :
    (st.replace g).result m' draw f' = st.result m draw f := by
  cases st with
  | sample n d =>
    have heval : (d.replace g).eval (m'.valueOf f') = d.eval (m.valueOf f) :=
      (Distribution.eval_replace _).trans (Distribution.eval_congr h)
    rw [replace, result, result, heval]; rfl
  | assign n e =>
    have heval : (e.replace g).eval (m'.valueOf f') = e.eval (m.valueOf f) :=
      (Expr.eval_replace _ e).trans (Expr.eval_congr h)
    rw [replace, result, result, heval]

/-- **A statement with its variables replaced** runs as before if what replaces them has the
    values that they stand for. -/
theorem run_replace {m m' : Model} (draw : Drawing σ) {f f' : Frame} {st : Statement}
    {R : Frame → Frame → Prop} (h : ∀ n ∈ st.names, (g n).eval (m'.valueOf f') = m.valueOf f n)
    (hR : ∀ v, R (st.update f v) (st.update f' v)) :
    (st.run m draw f).Coupled R ((st.replace g).run m' draw f') := by
  refine run_coupled_of_result (result_replace draw h).symm fun v => ?_
  rw [update_replace]; exact hR v

/-- Statements run in two models whose names stand for the same values. -/
theorem runAll_congr {m m' : Model} (h : ∀ f, m'.valueOf f = m.valueOf f) (draw : Drawing σ) :
    ∀ (f : Frame) (sts : List Statement), runAll m' draw f sts = runAll m draw f sts
  | _, [] => rfl
  | f, st :: sts => by
    have hrun : st.run m' draw f = st.run m draw f := by
      rw [run_eq, run_eq, result_congr draw fun n _ => congrFun (h f) n]
    rw [runAll, runAll, hrun]
    exact congrArg _ (funext fun f' => runAll_congr h draw f' sts)

theorem runAll_append (m : Model) (draw : Drawing σ) : ∀ (sts rest : List Statement) (f : Frame),
    runAll m draw f (sts ++ rest) = runAll m draw f sts >>= fun f' => runAll m draw f' rest
  | [], rest, f => by rw [List.nil_append, runAll, pure_bind]
  | st :: sts, rest, f => by
    rw [List.cons_append, runAll, runAll, bind_assoc]
    exact congrArg _ (funext fun f' => runAll_append m draw sts rest f')

end Statement

/-! ## Models -/

namespace Model

/-- The assignment of an intermediate value that can be left out: nothing else assigns the
    value, and no name of its expression gets a new value before a later statement that refers
    to it. -/
structure Inlines (m : Model) (z : Name) (e : Expr) (before after : List Statement) : Prop where
  statements : m.statements = before ++ .assign z e :: after
  once : ∀ st ∈ before ++ after, st.assigned? ≠ some z
  lasting : ∀ mid st rest, after = mid ++ st :: rest → z ∈ st.names →
    ∀ t ∈ mid, t.target ∉ e.names

/-- The model with other statements. -/
def withStatements (m : Model) (sts : List Statement) : Model := { m with statements := sts }

/-- The model without an assignment, the expression put for the name in all other
    statements. -/
def inlined (m : Model) (z : Name) (e : Expr) (before after : List Statement) : Model :=
  m.withStatements ((before ++ after).map (Statement.replace (Expr.put z e)))

variable {m : Model} {z : Name} {e : Expr} {before after : List Statement}

theorem sampledNames_inlined (h : m.Inlines z e before after) :
    (m.inlined z e before after).sampledNames = m.sampledNames := by
  have hsampled : ((before ++ after).map (Statement.replace (Expr.put z e))).filterMap
      Statement.sampled? = (before ++ after).filterMap Statement.sampled? := by
    rw [List.filterMap_map]
    exact List.filterMap_congr fun st _ => Statement.sampled?_replace st
  unfold sampledNames
  rw [h.statements, inlined, withStatements, hsampled, List.filterMap_append,
    List.filterMap_append]
  rfl

theorem valueOf_inlined (h : m.Inlines z e before after) (f : Frame) :
    (m.inlined z e before after).valueOf f = m.valueOf f := by
  funext n
  simp only [valueOf, sampledNames_inlined h]
  rfl

namespace Inlines

variable {c : CompiledStep}

theorem mem_statements (h : m.Inlines z e before after) {st : Statement}
    (hst : st ∈ before ++ after) : st ∈ m.statements := by
  rw [h.statements]
  rcases List.mem_append.1 hst with hst | hst
  · exact List.mem_append_left _ hst
  · exact List.mem_append_right _ (List.mem_cons_of_mem _ hst)

theorem assigns (h : m.Inlines z e before after) : m.Assigns z := by
  refine ⟨.assign z e, ?_, rfl⟩
  rw [h.statements]; simp

/-- The name of an intermediate value is neither drawn nor a data argument. -/
theorem not_declared (h : m.Inlines z e before after) (hd : ¬ m.Misdeclared) :
    z ∉ m.sampledNames ∧ z ∉ m.data :=
  ⟨fun hs => hd (.shadowing h.assigns (.inl (mem_sampledNames.1 hs))),
    fun hdata => hd (.shadowing h.assigns (.inr hdata))⟩

/-- No statement before the assignment refers to the value. -/
theorem not_mem_names (h : m.Inlines z e before after) (hd : ¬ m.Misdeclared)
    (hr : ¬ m.Dangling) {st : Statement} (hst : st ∈ before) : z ∉ st.names := by
  intro hz
  obtain ⟨front, back, rfl⟩ := List.append_of_mem hst
  obtain ⟨hs, hdata⟩ := h.not_declared hd
  refine hr ⟨front, st, back ++ .assign z e :: after, z, ?_, Statement.mem_names_iff.1 hz,
    fun hs' => hs (mem_sampledNames.2 hs'), hdata, fun t ht => h.once t ?_⟩
  · rw [h.statements]; simp
  · simp [ht]

end Inlines

theorem not_misdeclared_inlined (h : m.Inlines z e before after) (hd : ¬ m.Misdeclared) :
    ¬ (m.inlined z e before after).Misdeclared := by
  have hsamples : ∀ n, (m.inlined z e before after).Samples n → m.Samples n := by
    intro n hn
    exact mem_sampledNames.1 (sampledNames_inlined h ▸ mem_sampledNames.2 hn)
  have hundrawn : (m.inlined z e before after).sampledNames ≠ [] := by
    rw [sampledNames_inlined h]
    exact fun hnil => hd (.undrawn (sampledNames_eq_nil.1 hnil))
  rintro (hempty | hnone | hrep | ⟨hs, hdata⟩ | ⟨ha, hshadow⟩)
  · exact hundrawn (sampledNames_eq_nil.2 fun st hst => absurd (hempty ▸ hst) List.not_mem_nil)
  · exact hundrawn (sampledNames_eq_nil.2 hnone)
  · exact hd (.repeated hrep)
  · exact hd (.drawnData (hsamples _ hs) hdata)
  · obtain ⟨st', hst', hassigned⟩ := ha
    obtain ⟨st, hst, rfl⟩ := List.mem_map.1 hst'
    rw [Statement.assigned?_replace] at hassigned
    exact hd (.shadowing ⟨st, h.mem_statements hst, hassigned⟩ (hshadow.imp_left (hsamples _)))

theorem not_dangling_inlined (h : m.Inlines z e before after) (hd : ¬ m.Misdeclared)
    (hr : ¬ m.Dangling) : ¬ (m.inlined z e before after).Dangling := by
  rintro ⟨done', st', rest', n, hsplit, hn, hs, hdata, hassigned⟩
  obtain ⟨done, tail, hparts, rfl, htail⟩ := List.map_eq_append_iff.1 hsplit
  obtain ⟨st, rest, rfl, rfl, rfl⟩ := List.map_eq_cons_iff.1 htail
  obtain ⟨x, hx, hnx⟩ := Statement.mem_names_replace.1 (Statement.mem_names_iff.2 hn)
  have hs' : ¬ m.Samples n := by
    intro hsn
    exact hs (mem_sampledNames.1 (sampledNames_inlined h ▸ mem_sampledNames.2 hsn))
  have hdone : ∀ t ∈ done, t.assigned? ≠ some n := by
    intro t ht
    rw [← Statement.assigned?_replace t]
    exact hassigned _ (List.mem_map_of_mem ht)
  have hcases : (∃ mid, before = done ++ st :: mid) ∨
      ∃ mid, done = before ++ mid ∧ after = mid ++ st :: rest := by
    rcases List.append_eq_append_iff.1 hparts with ⟨mid, hdone, hafter⟩ | ⟨mid, hbefore, htail⟩
    · exact .inr ⟨mid, hdone, hafter⟩
    · cases mid with
      | nil => exact .inr ⟨[], by simpa using hbefore.symm, by simpa using htail.symm⟩
      | cons t mid =>
        obtain ⟨rfl, -⟩ := List.cons.inj htail
        exact .inl ⟨mid, hbefore⟩
  rcases hcases with ⟨mid, rfl⟩ | ⟨mid, rfl, rfl⟩
  · -- the statement stands before the assignment, where nothing refers to the value
    have hxz : x ≠ z := by
      rintro rfl
      exact h.not_mem_names hd hr (by simp) hx
    rw [Expr.names_put_of_ne hxz, List.mem_singleton] at hnx
    subst hnx
    refine hr ⟨done, st, mid ++ .assign z e :: after, n, ?_, Statement.mem_names_iff.1 hx, hs',
      hdata, hdone⟩
    rw [h.statements]; simp
  · by_cases hxz : x = z
    · -- a name of the expression put in, missing at the assignment already
      rw [hxz, Expr.put_self] at hnx
      refine hr ⟨before, .assign z e, mid ++ st :: rest, n, h.statements, ?_, hs', hdata,
        fun t ht => hdone t (List.mem_append_left _ ht)⟩
      exact Statement.mem_names_iff.1 hnx
    · rw [Expr.names_put_of_ne hxz, List.mem_singleton] at hnx
      subst hnx
      refine hr ⟨before ++ .assign z e :: mid, st, rest, n, ?_, Statement.mem_names_iff.1 hx, hs',
        hdata, fun t ht => ?_⟩
      · rw [h.statements]; simp
      · rcases List.mem_append.1 ht with ht | ht
        · exact hdone t (List.mem_append_left _ ht)
        · rcases List.mem_cons.1 ht with rfl | ht
          · exact fun heq => hxz (Option.some.inj heq).symm
          · exact hdone t (List.mem_append_right _ ht)

/-- **The model without the assignment is accepted.** -/
theorem exists_compiled_inlined {c : CompiledStep} (h : m.Inlines z e before after)
    (hc : m.compile.result = .ok c) :
    ∃ c', (m.inlined z e before after).compile.result = .ok c' := by
  obtain ⟨hdisplay, hd, hr⟩ := compile_ok_iff.1 ⟨c, hc⟩
  refine compile_ok_iff.2 ⟨?_, not_misdeclared_inlined h hd, not_dangling_inlined h hd hr⟩
  have he : e.isDisplayable = true := by
    refine hdisplay (.assign z e) ?_ e (List.mem_singleton_self e)
    rw [h.statements]; simp
  intro st' hst'
  obtain ⟨st, hst, rfl⟩ := List.mem_map.1 hst'
  refine Statement.isDisplayable_replace (hdisplay st (h.mem_statements hst)) fun n => ?_
  unfold Expr.put
  split
  · exact he
  · rfl

end Model

/-! ## Sweeps -/

/-- The frames of the two sweeps after the assignment and some statements.  The expression
    still has the value that was assigned if none of these statements gave one of its names a
    new value. -/
structure Frame.Inlines (m : Model) (z : Name) (e : Expr) (v : Value) (mid : List Statement)
    (f f' : Frame) : Prop where
  state : f'.state = f.state
  data : f'.data = f.data
  held : f.locals.lookup z = some v
  locals : ∀ n, n ≠ z → f'.locals.lookup n = f.locals.lookup n
  value : (∀ t ∈ mid, t.target ∉ e.names) → e.eval (m.valueOf f') = .ok v

namespace Frame.Inlines

variable {m : Model} {z : Name} {e : Expr} {v : Value} {mid : List Statement} {st : Statement}
  {f f' : Frame}

theorem start (he : e.eval (m.valueOf f) = .ok v) : Inlines m z e v [] (f.setLocal z v) f where
  state := rfl
  data := rfl
  held := List.lookup_cons_self
  locals n hn := by
    simp only [Frame.setLocal, List.lookup_cons, beq_false_of_ne hn]
  value _ := he

/-- **A variable that is replaced** stands for the same value in the two sweeps. -/
theorem eval_put (h : Inlines m z e v mid f f') (hs : z ∉ m.sampledNames) (hd : z ∉ m.data)
    (hlast : z ∈ st.names → ∀ t ∈ mid, t.target ∉ e.names) :
    ∀ n ∈ st.names, (Expr.put z e n).eval (m.valueOf f') = m.valueOf f n := by
  intro n hn
  by_cases hnz : n = z
  · subst hnz
    rw [Expr.put_self, h.value (hlast hn), Model.valueOf, if_neg hs, if_neg hd, h.held]
    rfl
  · rw [Expr.put_of_ne hnz, Expr.eval, Model.valueOf, Model.valueOf, h.state, h.data,
      h.locals n hnz]

/-- **One more statement**, which does not assign the name that is left out. -/
theorem update (h : Inlines m z e v mid f f') (ht : st.assigned? ≠ some z) (w : Value) :
    Inlines m z e v (mid ++ [st]) (st.update f w) (st.update f' w) := by
  have hvalue : (∀ t ∈ mid ++ [st], t.target ∉ e.names) →
      e.eval (m.valueOf (st.update f' w)) = .ok v := by
    intro htarget
    rw [← h.value fun t ht => htarget t (List.mem_append_left _ ht)]
    refine Expr.eval_congr fun n hn => Statement.valueOf_update m ?_ f' w
    rintro rfl
    exact htarget st (by simp) hn
  cases st with
  | sample n d => exact ⟨congrArg (State.set · n.text w) h.state, h.data, h.held, h.locals, hvalue⟩
  | assign n e' =>
    have hzn : z ≠ n := fun heq => ht (congrArg some heq.symm)
    refine ⟨h.state, h.data, ?_, fun x hx => ?_, hvalue⟩
    · simp only [Statement.update, Frame.setLocal, List.lookup_cons, beq_false_of_ne hzn, h.held]
    · simp only [Statement.update, Frame.setLocal, List.lookup_cons, h.locals x hx]

end Frame.Inlines

section Sweeps

variable {m : Model} {z : Name} {e : Expr} {before after : List Statement}

/-- The statements before the assignment are the same in the two sweeps. -/
theorem runAll_before (draw : Drawing σ) (m : Model) : ∀ {sts : List Statement} (f : Frame),
    (∀ st ∈ sts, z ∉ st.names) →
    (Statement.runAll m draw f sts).Coupled Eq
      (Statement.runAll m draw f (sts.map (Statement.replace (Expr.put z e))))
  | [], f, _ => .pure rfl
  | st :: sts, f, hz => by
    have hvalue : ∀ n ∈ st.names, (Expr.put z e n).eval (m.valueOf f) = m.valueOf f n := by
      intro n hn
      have hnz : n ≠ z := fun heq => hz st List.mem_cons_self (heq ▸ hn)
      rw [Expr.put_of_ne hnz, Expr.eval]
    refine (Statement.run_replace draw hvalue fun _ => rfl).bind ?_
    rintro f' _ rfl
    exact runAll_before draw m f' fun t ht => hz t (List.mem_cons_of_mem _ ht)

/-- **The statements after the assignment** leave the same state, with and without it. -/
theorem runAll_inlined (draw : Drawing σ) (h : m.Inlines z e before after)
    (hs : z ∉ m.sampledNames) (hd : z ∉ m.data) {v : Value} :
    ∀ {rest mid : List Statement} {f f' : Frame}, after = mid ++ rest →
    Frame.Inlines m z e v mid f f' →
    (Statement.runAll m draw f rest).Coupled (fun g g' => g'.state = g.state)
      (Statement.runAll m draw f' (rest.map (Statement.replace (Expr.put z e))))
  | [], mid, f, f', _, hf => .pure hf.state
  | st :: rest, mid, f, f', hsplit, hf => by
    have hlast : z ∈ st.names → ∀ t ∈ mid, t.target ∉ e.names := h.lasting mid st rest hsplit
    have honce : st.assigned? ≠ some z := h.once st (by rw [hsplit]; simp)
    have hstep := Statement.run_replace (R := Frame.Inlines m z e v (mid ++ [st])) draw
      (hf.eval_put hs hd hlast) (hf.update honce)
    refine hstep.bind fun g g' hg => ?_
    exact runAll_inlined draw h hs hd (by rw [hsplit]; simp) hg

/-- Statements that succeed leave the same state without the assignment. -/
theorem outcome_runAll_inlined (draw : Drawing σ) (h : m.Inlines z e before after)
    (hs : z ∉ m.sampledNames) (hd : z ∉ m.data) (hbefore : ∀ st ∈ before, z ∉ st.names)
    {f g : Frame} {r r' : σ}
    (hrun : (Statement.runAll m draw f m.statements).outcome r = (.ok g, r')) :
    ∃ g', (Statement.runAll m draw f
        ((before ++ after).map (Statement.replace (Expr.put z e)))).outcome r = (.ok g', r') ∧
      g'.state = g.state := by
  rw [h.statements, Statement.runAll_append] at hrun
  obtain ⟨f₁, r₁, h₁, hrun⟩ := Sampling.outcome_bind_eq_ok.1 hrun
  obtain ⟨f₂, r₂, h₂, h₃⟩ := Sampling.outcome_bind_eq_ok.1 hrun
  obtain ⟨v, r₃, hv, hset⟩ := Sampling.outcome_bind_eq_ok.1 h₂
  cases hset
  obtain ⟨hvalue, rfl⟩ := Sampling.outcome_ofExcept_eq_ok.1 hv
  obtain ⟨_, rfl, h₁'⟩ := (runAll_before (e := e) draw m f hbefore).of_ok h₁
  have hafter := runAll_inlined draw h hs hd (List.nil_append after).symm (.start hvalue)
  obtain ⟨g', hg, h₃'⟩ := hafter.of_ok h₃
  refine ⟨g', ?_, hg⟩
  rw [List.map_append, Statement.runAll_append]
  exact Sampling.outcome_bind_eq_ok.2 ⟨f₁, _, h₁', h₃'⟩

end Sweeps

/-- **Intermediate values can be inlined.**  If a model is accepted with an assignment that can
    be left out, and the distributions built anew with the expression in place of the name
    pass their checks, the model without the assignment is accepted; and a sweep of the first
    model that returns a state returns the same one in the second, with the same randomness
    left. -/
theorem inlined_sweep {m : Model} {z : Name} {e : Expr} {before after sts : List Statement}
    {c : CompiledStep} (hc : m.compile.result = .ok c) (h : m.Inlines z e before after)
    (hbuilt : ∀ st ∈ m.statements, st.IsBuilt)
    (hsts : (before ++ after).mapM (Statement.rebuilt (Expr.put z e)) = .ok sts) :
    ∃ c', (m.withStatements sts).compile.result = .ok c' ∧
      ∀ {σ : Type} (draw : Drawing σ) (data : List Value) (s t : State) (r r' : σ),
        (∀ n ∈ m.sampledNames, s.has n.text = true) →
        (c.run draw s data).outcome r = (.ok t, r') →
        (c'.run draw s data).outcome r = (.ok t, r') := by
  have hrebuilt : sts = (before ++ after).map (Statement.replace (Expr.put z e)) := by
    have hmap := map_of_mapM (g := id) (h := Statement.replace (Expr.put z e))
      (fun st hst _ hst' => Statement.rebuilt_eq (hbuilt st (h.mem_statements hst)) hst') hsts
    rwa [List.map_id] at hmap
  subst hrebuilt
  obtain ⟨-, hdeclared, hdangling⟩ := Model.compile_ok_iff.1 ⟨c, hc⟩
  obtain ⟨hs, hd⟩ := h.not_declared hdeclared
  obtain ⟨c', hc'⟩ := Model.exists_compiled_inlined h hc
  refine ⟨c', hc', fun {σ} draw data s t r r' hstate hrun => ?_⟩
  have ha := Model.accepted hc
  have ha' := Model.accepted hc'
  have hstate' : ∀ n ∈ (m.inlined z e before after).sampledNames, s.has n.text = true := by
    rwa [Model.sampledNames_inlined h]
  by_cases hlen : data.length = m.data.length
  · rw [run_accepted ha hstate hlen] at hrun
    obtain ⟨g, r₁, hg, hpure⟩ := Sampling.outcome_bind_eq_ok.1 hrun
    cases hpure
    obtain ⟨g', hg', hstates⟩ := outcome_runAll_inlined draw h hs hd
      (fun st hst => h.not_mem_names hdeclared hdangling hst) hg
    rw [run_accepted ha' hstate' hlen]
    refine Sampling.outcome_bind_eq_ok.2 ⟨g', _, ?_, by rw [hstates]; rfl⟩
    rw [← hg']
    exact congrArg (Sampling.outcome · r)
      (Statement.runAll_congr (Model.valueOf_inlined h) draw _ _)
  · rw [CompiledStep.run_of_length_ne (by rwa [ha.data])] at hrun
    cases hrun

/-! ## A shift -/

/-- The value of `x` and one more. -/
def shift : Expr := .binary (.arith .add) (.var ⟨"x", isIdentifier_x⟩) (.literal (.int 1))

/-- The normal distribution around an expression. -/
def unitNormal (mu : Expr) : Distribution :=
  ⟨.normal, [("mu", mu), ("sigma", .literal (.int 1))]⟩

theorem ofOperands_unitNormal (mu : Expr) :
    Distribution.ofOperands .normal [("mu", .node mu), ("sigma", .node (.literal (.int 1)))]
      = .ok (unitNormal mu) := by
  have hnames : Distribution.checkNames .normal ["mu", "sigma"] = .ok () := by cbv
  exact bind_eq_ok.2 ⟨(), hnames, bind_eq_ok.2 ⟨_, rfl, rfl⟩⟩

theorem rebuilt_around (n : Name) (g : Name → Expr) (mu : Expr) :
    (Statement.sample n (unitNormal mu)).rebuilt g = .ok (.sample n (unitNormal (mu.replace g))) :=
  bind_eq_ok.2 ⟨_, ofOperands_unitNormal (mu.replace g), rfl⟩

/-- A model that draws `y` and then `x` around `z`, which is `x` and one more. -/
def shifting : Model :=
  let x : Name := ⟨"x", isIdentifier_x⟩
  let y : Name := ⟨"y", isIdentifier_y⟩
  let z : Name := ⟨"z", isIdentifier_z⟩
  ⟨x, [], [.assign z shift, .sample y (unitNormal (.var z)), .sample x (unitNormal (.var z))]⟩

/-- A state with values for both variables. -/
def shiftingStart : State := ⟨[("x", .int 3), ("y", .int 1)], by decide⟩

/-- The state after a sweep with draws of 5 and 6. -/
def shiftingEnd : State := ⟨[("x", .int 6), ("y", .int 5)], by decide⟩

theorem shifting_inlines :
    shifting.Inlines ⟨"z", by decide⟩ shift [] (shifting.statements.drop 1) where
  statements := rfl
  once := by simp [shifting, Statement.assigned?]
  lasting mid st rest hsplit _ := by
    rcases mid with _ | ⟨u, _ | ⟨u', mid⟩⟩
    · simp
    · -- only the draw of `y` stands between
      obtain ⟨rfl, -⟩ := List.cons.inj hsplit
      rw [List.forall_mem_singleton]
      decide
    · have hlen := congrArg List.length hsplit
      simp [shifting] at hlen

theorem shifting_inlined : ∃ sts, (shifting.statements.drop 1).mapM
      (Statement.rebuilt (Expr.put ⟨"z", by decide⟩ shift)) = .ok sts ∧
    ∃ c c', shifting.compile.result = .ok c ∧
      (shifting.withStatements sts).compile.result = .ok c' ∧
      (c.run counting shiftingStart []).outcome 5 = (.ok shiftingEnd, 7) ∧
      (c'.run counting shiftingStart []).outcome 5 = (.ok shiftingEnd, 7) := by
  obtain ⟨c, hc, hrun⟩ : ∃ c, shifting.compile.result = .ok c ∧
      (c.run counting shiftingStart []).outcome 5 = (.ok shiftingEnd, 7) := ⟨_, rfl, rfl⟩
  obtain ⟨sts, hsts⟩ : ∃ sts, (shifting.statements.drop 1).mapM
      (Statement.rebuilt (Expr.put ⟨"z", by decide⟩ shift)) = .ok sts := by
    refine mapM_ok ?_
    simp only [shifting, List.drop_succ_cons, List.drop_zero, List.forall_mem_cons]
    exact ⟨⟨_, rebuilt_around _ _ _⟩, ⟨_, rebuilt_around _ _ _⟩,
      fun st hst => absurd hst List.not_mem_nil⟩
  have hbuilt : ∀ st ∈ shifting.statements, st.IsBuilt := by
    simp only [shifting, List.forall_mem_cons]
    exact ⟨True.intro, ⟨_, ofOperands_unitNormal _⟩, ⟨_, ofOperands_unitNormal _⟩,
      fun st hst => absurd hst List.not_mem_nil⟩
  obtain ⟨c', hc', hsame⟩ := inlined_sweep hc shifting_inlines hbuilt hsts
  refine ⟨sts, hsts, c, c', hc, hc', hrun, ?_⟩
  exact hsame counting [] shiftingStart shiftingEnd 5 7 (by decide) hrun

end Gibbs
