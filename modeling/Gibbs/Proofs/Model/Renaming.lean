/-
  Renamed models.

  Names matter only through equality.  A renaming takes different texts to different texts, and
  identifiers to identifiers.  A model whose variables, targets and data arguments are renamed
  is compiled, or refused, as the model itself is, and sweeps over a state with renamed keys as
  the model does over the state.

  * `Renaming`: renamings, and what they do to models, states and errors;
  * `Renaming.scope?_model`: the scope of a renamed name;
  * `verdict`, `Renaming.verdict_compile`: how compiling ends;
  * `Renaming.valueOf_frame`, `Renaming.run_statement`: values and statements in a renamed frame;
  * `renamed_model`: compiling and sweeping, with `underscored` as an example.
-/
import Gibbs.Proofs.Expr.Replace
import Gibbs.Proofs.List
import Gibbs.Proofs.Model.Acceptance
import Gibbs.Proofs.Model.Update
import Gibbs.Proofs.Stream.Calls
import Gibbs.Proofs.Text
import Mathlib.Data.List.Count
import Mathlib.Data.List.Nodup

namespace Gibbs

/-! ## Renamings -/

/-- An injective map of texts that takes identifiers to identifiers. -/
structure Renaming where
  text : String → String
  injective : Function.Injective text
  isIdentifier : ∀ s, Text.isIdentifier s = true → Text.isIdentifier (text s) = true

namespace Renaming

variable (r : Renaming)

/-- A renamed name. -/
def name (n : Name) : Name := ⟨r.text n.text, r.isIdentifier n.text n.isIdentifier_text⟩

theorem name_injective : Function.Injective r.name := fun _ _ h =>
  Name.ext_text (r.injective (congrArg Name.text h))

/-- An expression with every variable renamed. -/
def expr (e : Expr) : Expr := e.replace fun n => .var (r.name n)

/-- A distribution with every variable renamed; the names of the parameters stay. -/
def distribution (d : Distribution) : Distribution := d.replace fun n => .var (r.name n)

/-- A statement with its target and every variable renamed. -/
def statement : Statement → Statement
  | .sample n d => .sample (r.name n) (r.distribution d)
  | .assign n e => .assign (r.name n) (r.expr e)

/-- A model with its data arguments and its statements renamed; its own name stays. -/
def model (m : Model) : Model := ⟨m.name, m.data.map r.name, m.statements.map r.statement⟩

/-- A state with its keys renamed, in the same order. -/
def state (s : State) : State :=
  ⟨s.entries.map fun p => (r.text p.1, p.2), by
    have h := List.Nodup.map r.injective s.nodup_keys
    rwa [List.map_map] at h ⊢⟩

/-- An error of a sweep with the names that it lists renamed, in the same order. -/
def error : Error → Error
  | .sweepData m names given => .sweepData m (names.map r.text) given
  | .stateIncomplete names => .stateIncomplete (names.map r.text)
  | e => e

/-- A renamed error is of the same class. -/
theorem kind_error (e : Error) : (r.error e).kind = e.kind := by
  cases e <;> rfl

/-- The outcome of a sweep with its state or its error renamed. -/
def outcome {σ : Type} : Except Error State × σ → Except Error State × σ
  | (.error e, q) => (.error (r.error e), q)
  | (.ok s, q) => (.ok (r.state s), q)

/-! ## Names -/

variable {m : Model}

theorem data_model : (r.model m).data = m.data.map r.name := rfl

theorem statements_model : (r.model m).statements = m.statements.map r.statement := rfl

theorem occurrences_expr (e : Expr) : (r.expr e).occurrences = e.occurrences.map r.name := by
  rw [expr, Expr.occurrences_replace, List.map_eq_flatMap]; rfl

theorem names_expr (e : Expr) : (r.expr e).names = e.names.map r.name := by
  rw [Expr.names, occurrences_expr, eraseDups_map r.name_injective, Expr.names]

theorem names_statement (st : Statement) : (r.statement st).names = st.names.map r.name := by
  cases st with
  | sample n d =>
    simp only [statement, Statement.names, Distribution.names, distribution, Distribution.replace,
      List.flatMap_map]
    rw [← eraseDups_map r.name_injective, List.map_flatMap]
    exact congrArg (fun l : List Name => l.eraseDups)
      (List.flatMap_congr fun p _ => r.names_expr p.2)
  | assign n e => exact r.names_expr e

theorem sampled?_statement (st : Statement) :
    (r.statement st).sampled? = st.sampled?.map r.name := by
  cases st <;> rfl

theorem assigned?_statement (st : Statement) :
    (r.statement st).assigned? = st.assigned?.map r.name := by
  cases st <;> rfl

theorem sampledNames_model : (r.model m).sampledNames = m.sampledNames.map r.name := by
  rw [Model.sampledNames, Model.sampledNames, ← eraseDups_map r.name_injective, statements_model,
    List.filterMap_map, List.map_filterMap]
  exact congrArg (fun f => (m.statements.filterMap f).eraseDups) (funext r.sampled?_statement)

theorem intermediateNames_model :
    (r.model m).intermediateNames = m.intermediateNames.map r.name := by
  rw [Model.intermediateNames, Model.intermediateNames, ← eraseDups_map r.name_injective,
    statements_model, List.filterMap_map, List.map_filterMap]
  exact congrArg (fun f => (m.statements.filterMap f).eraseDups) (funext r.assigned?_statement)

theorem mem_sampledNames_model {n : Name} :
    r.name n ∈ (r.model m).sampledNames ↔ n ∈ m.sampledNames := by
  rw [sampledNames_model, List.mem_map_of_injective r.name_injective]

/-- **The scope of a renamed name** is that of the name. -/
theorem scope?_model (n : Name) : (r.model m).scope? (r.name n) = m.scope? n := by
  simp only [Model.scope?, sampledNames_model, intermediateNames_model, data_model,
    contains_map r.name_injective]

theorem repeatedData_model : (r.model m).repeatedData = m.repeatedData.map r.name := by
  simp only [Model.repeatedData, data_model, List.filter_map, Function.comp_def,
    List.count_map_of_injective _ _ r.name_injective]

theorem sampledData_model : (r.model m).sampledData = m.sampledData.map r.name := by
  simp only [Model.sampledData, sampledNames_model, List.filter_map, Function.comp_def,
    data_model, contains_map r.name_injective]

theorem shadowingNames_model : (r.model m).shadowingNames = m.shadowingNames.map r.name := by
  simp only [Model.shadowingNames, intermediateNames_model, sampledNames_model, List.filter_map,
    Function.comp_def, data_model, contains_map r.name_injective]

theorem undefinedName?_statement (defined : List Name) (st : Statement) :
    Model.undefinedName? (defined.map r.name) (r.statement st)
      = (Model.undefinedName? defined st).map r.name := by
  simp only [Model.undefinedName?, names_statement, List.find?_map, Function.comp_def,
    contains_map r.name_injective]

theorem definedAfter_statement (defined : List Name) (st : Statement) :
    Model.definedAfter (defined.map r.name) (r.statement st)
      = (Model.definedAfter defined st).map r.name := by
  cases st <;> rfl

end Renaming

/-! ## How a computation ends -/

/-- A computation without its result: that it comes to an end, or the class of its error. -/
def verdict {α : Type} : Except Error α → Except ErrorKind Unit
  | .error e => .error e.kind
  | .ok _ => .ok ()

section
variable {α β γ δ : Type}

theorem verdict_bind {x : Except Error α} {y : Except Error β} {f : α → Except Error γ}
    {g : β → Except Error δ} (h : verdict x = verdict y)
    (hfg : ∀ a b, verdict (f a) = verdict (g b)) : verdict (x >>= f) = verdict (y >>= g) := by
  rcases x with e | a <;> rcases y with e' | b
  · exact h
  · cases h
  · cases h
  · exact hfg a b

theorem verdict_mapM {f : α → Except Error γ} {g : α → Except Error δ} :
    ∀ {l : List α}, (∀ a ∈ l, verdict (f a) = verdict (g a)) →
      verdict (l.mapM f) = verdict (l.mapM g)
  | [], _ => rfl
  | a :: l, h => by
    rw [List.mapM_cons, List.mapM_cons]
    refine verdict_bind (h a List.mem_cons_self) fun _ _ => ?_
    exact verdict_bind (verdict_mapM fun b hb => h b (List.mem_cons_of_mem a hb)) fun _ _ => rfl

/-- The cases of two computations that end in the same way. -/
theorem verdict_cases {x : Except Error α} {y : Except Error β} (h : verdict x = verdict y) :
    (∃ e e', x = .error e ∧ y = .error e' ∧ e.kind = e'.kind) ∨
    ∃ a b, x = .ok a ∧ y = .ok b := by
  rcases x with e | a <;> rcases y with e' | b
  · exact .inl ⟨e, e', rfl, rfl, Except.error.inj h⟩
  · cases h
  · cases h
  · exact .inr ⟨a, b, rfl, rfl⟩

end

/-- Whether an operation can be displayed does not depend on its operands. -/
theorem UnaryOp.verdict_render (op : UnaryOp) (x x' : String) :
    verdict (op.render x) = verdict (op.render x') := by
  cases op with
  | custom c => simp only [render]; split <;> rfl
  | sum axis => cases axis <;> rfl
  | _ => rfl

theorem BinaryOp.verdict_render (op : BinaryOp) (x y x' y' : String) :
    verdict (op.render x y) = verdict (op.render x' y') := by
  cases op with
  | custom c => simp only [render]; split <;> rfl
  | _ => rfl

/-! ## Compiling -/

namespace Renaming

variable (r : Renaming) {m : Model}

/-- **Texts of expressions** may differ in their names, but one of them has a text if the other
    one has. -/
theorem verdict_render (f f' : String → String) (e : Expr) :
    verdict ((r.expr e).render f) = verdict (e.render f') := by
  induction e with
  | var n => rfl
  | literal v => rfl
  | bare => rfl
  | unary op e ih => exact verdict_bind ih fun x x' => op.verdict_render x x'
  | binary op l r' ihl ihr =>
    exact verdict_bind ihl fun x x' => verdict_bind ihr fun y y' => op.verdict_render x y x' y'

theorem verdict_render_distribution (f f' : String → String) (d : Distribution) :
    verdict ((r.distribution d).render f) = verdict (d.render f') := by
  simp only [Distribution.render, distribution, Distribution.replace, List.mapM_map]
  refine verdict_bind (verdict_mapM fun p _ => ?_) fun _ _ => rfl
  exact verdict_bind (r.verdict_render f f' p.2) fun _ _ => rfl

theorem verdict_text (st : Statement) : verdict (r.statement st).text = verdict st.text := by
  cases st with
  | sample n d => exact verdict_bind (r.verdict_render_distribution _ _ d) fun _ _ => rfl
  | assign n e => exact verdict_bind (r.verdict_render _ _ e) fun _ _ => rfl

theorem verdict_checkNames : verdict (r.model m).checkNames = verdict m.checkNames := by
  have hst : (r.model m).statements.isEmpty = m.statements.isEmpty := List.isEmpty_map
  simp only [Model.checkNames, hst, repeatedData_model, sampledNames_model, sampledData_model,
    shadowingNames_model, List.isEmpty_map]
  split_ifs <;> rfl

theorem verdict_checkReferences : ∀ (defined : List Name) (sts : List Statement),
    verdict (Model.checkReferences (defined.map r.name) (sts.map r.statement))
      = verdict (Model.checkReferences defined sts)
  | _, [] => rfl
  | defined, st :: sts => by
    rw [List.map_cons, Model.checkReferences, Model.checkReferences, undefinedName?_statement]
    cases Model.undefinedName? defined st with
    | some n => exact verdict_bind (r.verdict_text st) fun _ _ => rfl
    | none =>
      simp only [Option.map_none, definedAfter_statement]
      exact verdict_checkReferences (Model.definedAfter defined st) sts

/-- A renamed name has a place if the name has one. -/
theorem isSome_place?_model (n : Name) :
    ((r.model m).place? (r.name n)).isSome = (m.place? n).isSome := by
  simp only [Model.place?, scope?_model]
  rcases m.scope? n with _ | _ | _ | _ <;> rfl

theorem verdict_compile_expr (e : Expr) :
    verdict ((r.expr e).compile (r.model m).place?) = verdict (e.compile m.place?) := by
  induction e with
  | var n =>
    have hplace := r.isSome_place?_model (m := m) n
    simp only [expr, Expr.replace, Expr.compile]
    cases h : (r.model m).place? (r.name n) <;> cases h' : m.place? n <;>
      simp only [h, h', Option.isSome_none, Option.isSome_some, reduceCtorEq] at hplace <;> rfl
  | literal v => rfl
  | bare => rfl
  | unary op e ih => exact verdict_bind ih fun _ _ => rfl
  | binary op l r' ihl ihr => exact verdict_bind ihl fun _ _ => verdict_bind ihr fun _ _ => rfl

theorem verdict_compile_statement (st : Statement) :
    verdict ((r.statement st).compile (r.model m).place?) = verdict (st.compile m.place?) := by
  cases st with
  | sample n d =>
    simp only [statement, distribution, Distribution.replace, Statement.compile, List.mapM_map]
    refine verdict_bind (verdict_mapM fun p _ => ?_) fun _ _ => rfl
    exact verdict_bind (r.verdict_compile_expr p.2) fun _ _ => rfl
  | assign n e => exact verdict_bind (r.verdict_compile_expr e) fun _ _ => rfl

theorem verdict_sourceLine (st : Statement) :
    verdict ((r.model m).sourceLine (r.statement st)) = verdict (m.sourceLine st) := by
  cases st with
  | sample n d => exact verdict_bind (r.verdict_render_distribution _ _ d) fun _ _ => rfl
  | assign n e => exact verdict_bind (r.verdict_render _ _ e) fun _ _ => rfl

theorem verdict_instructions : verdict (r.model m).instructions = verdict m.instructions := by
  have hreferences : verdict (Model.checkReferences ((r.model m).sampledNames ++ (r.model m).data)
      (r.model m).statements)
      = verdict (Model.checkReferences (m.sampledNames ++ m.data) m.statements) := by
    rw [sampledNames_model, data_model, ← List.map_append]
    exact r.verdict_checkReferences _ _
  refine verdict_bind (verdict_bind r.verdict_checkNames fun _ _ => hreferences) fun _ _ => ?_
  rw [statements_model, List.mapM_map]
  exact verdict_mapM fun st _ => r.verdict_compile_statement st

/-- **Compiling a renamed model** ends as compiling the model does. -/
theorem verdict_compile : verdict (r.model m).compile.result = verdict m.compile.result := by
  have hcompile : ∀ m : Model, m.compile.result = m.instructions >>= m.stepOf := by
    intro m
    unfold Model.compile
    cases m.instructions <;> rfl
  rw [hcompile, hcompile]
  refine verdict_bind r.verdict_instructions fun _ _ => verdict_bind ?_ fun _ _ => rfl
  refine verdict_bind ?_ fun _ _ => rfl
  rw [statements_model, List.mapM_map]
  exact verdict_mapM fun st _ => r.verdict_sourceLine st

/-! ## Sweeping -/

variable {σ : Type}

theorem get?_state (s : State) (n : String) : (r.state s).get? (r.text n) = s.get? n :=
  lookup_map r.injective n s.entries

theorem keys_state (s : State) : (r.state s).keys = s.keys.map r.text := by
  simp only [State.keys, state, List.map_map, Function.comp_def]

theorem has_state (s : State) (n : String) : (r.state s).has (r.text n) = s.has n := by
  rw [State.has, keys_state, contains_map r.injective, State.has]

theorem setEntry_map {α : Type} (n : String) (v : α) : ∀ l : List (String × α),
    setEntry (r.text n) v (l.map fun p => (r.text p.1, p.2))
      = (setEntry n v l).map fun p => (r.text p.1, p.2)
  | [] => rfl
  | p :: l => by
    simp only [List.map_cons, setEntry, r.injective.eq_iff, setEntry_map n v l]
    split <;> rfl

theorem set_state (s : State) (n : String) (v : Value) :
    (r.state s).set (r.text n) v = r.state (s.set n v) :=
  State.ext_entries (r.setEntry_map n v s.entries)

/-- A frame with its names renamed. -/
def frame (f : Frame) : Frame :=
  ⟨r.state f.state, f.locals.map fun p => (r.name p.1, p.2), f.data⟩

/-- **A renamed name** stands for what the name stands for. -/
theorem valueOf_frame (f : Frame) (n : Name) :
    (r.model m).valueOf (r.frame f) (r.name n) = m.valueOf f n := by
  have hdata : r.name n ∈ (r.model m).data ↔ n ∈ m.data :=
    List.mem_map_of_injective r.name_injective
  simp only [Model.valueOf, mem_sampledNames_model, hdata]
  split_ifs
  · exact congrArg (present .missingKey) (r.get?_state f.state n.text)
  · exact congrArg (fun i => present .badIndex f.data[i]?) (idxOf_map r.name_injective n m.data)
  · exact congrArg (present .missingKey) (lookup_map r.name_injective n f.locals)

theorem result_statement (draw : Drawing σ) (f : Frame) (st : Statement) :
    (r.statement st).result (r.model m) draw (r.frame f) = st.result m draw f := by
  have hlookup : (fun n => (Expr.var (r.name n)).eval ((r.model m).valueOf (r.frame f)))
      = m.valueOf f := funext (r.valueOf_frame f)
  cases st with
  | sample n d =>
    rw [statement, Statement.result, distribution, Distribution.eval_replace, hlookup]; rfl
  | assign n e =>
    rw [statement, Statement.result, expr, Expr.eval_replace, hlookup]; rfl

theorem update_statement (f : Frame) (v : Value) (st : Statement) :
    (r.statement st).update (r.frame f) v = r.frame (st.update f v) := by
  cases st with
  | sample n d =>
    exact congrArg (fun s => Frame.mk s (r.frame f).locals f.data) (r.set_state f.state n.text v)
  | assign n e => rfl

/-- **A renamed statement** runs in a renamed frame as the statement does in the frame. -/
theorem run_statement (draw : Drawing σ) (f : Frame) (st : Statement) :
    (st.run m draw f).Coupled (fun g g' => g' = r.frame g)
      ((r.statement st).run (r.model m) draw (r.frame f)) :=
  Statement.run_coupled_of_result (r.result_statement draw f st).symm fun v =>
    r.update_statement f v st

theorem runAll_statements (draw : Drawing σ) : ∀ (sts : List Statement) (f : Frame),
    (Statement.runAll m draw f sts).Coupled (fun g g' => g' = r.frame g)
      (Statement.runAll (r.model m) draw (r.frame f) (sts.map r.statement))
  | [], _ => .pure rfl
  | st :: sts, f => by
    refine (r.run_statement draw f st).bind ?_
    rintro g _ rfl
    exact runAll_statements draw sts g

theorem error_of_isDrawing {e : Error} (h : e.isDrawing = true) : r.error e = e := by
  cases e <;> first | rfl | cases h

theorem missing_state {c c' : CompiledStep} (hc : c'.sampled = c.sampled.map r.name) (s : State) :
    c'.missing (r.state s) = (c.missing s).map r.text := by
  have hmap : (c.sampled.map r.name).map Name.text = (c.sampled.map Name.text).map r.text := by
    simp only [List.map_map]; rfl
  rw [CompiledStep.missing, hc, hmap, List.filter_map, CompiledStep.missing]
  refine congrArg (List.map r.text) (List.filter_congr fun n _ => ?_)
  exact congrArg not (r.has_state s n)

theorem runAll_instructions {c c' : CompiledStep} (hc : m.Accepted c)
    (hc' : (r.model m).Accepted c') (draw : Drawing σ) (s : State) (data : List Value) :
    (Instruction.runAll draw ⟨s, [], data⟩ c.instructions).Coupled (fun g g' => g' = r.frame g)
      (Instruction.runAll draw ⟨r.state s, [], data⟩ c'.instructions) := by
  rw [Gibbs.runAll_instructions draw hc.instructions,
    Gibbs.runAll_instructions draw hc'.instructions]
  exact r.runAll_statements draw m.statements ⟨s, [], data⟩

/-- **A sweep of a renamed model.** -/
theorem outcome_sweep {c c' : CompiledStep} (hc : m.Accepted c) (hc' : (r.model m).Accepted c')
    (s : State) (data : List Value) (g : Stream) :
    (c'.sweep (r.state s) data).outcome g = r.outcome ((c.sweep s data).outcome g) := by
  have hdata : c'.data = c.data.map r.name := by rw [hc'.data, hc.data]; rfl
  have hsampled : c'.sampled = c.sampled.map r.name := by
    rw [hc'.sampled, hc.sampled, sampledNames_model]
  have hlength : c'.data.length = c.data.length := by rw [hdata, List.length_map]
  have hmissing := r.missing_state hsampled s
  unfold CompiledStep.sweep
  by_cases hl : data.length = c.data.length
  · have hl' : data.length = c'.data.length := hl.trans hlength.symm
    by_cases hm : c.missing s = []
    · have hm' : c'.missing (r.state s) = [] := by rw [hmissing, hm, List.map_nil]
      rw [CompiledStep.run_of_complete hl hm, CompiledStep.run_of_complete hl' hm',
        Sampling.outcome_bind, Sampling.outcome_bind]
      rcases (r.runAll_instructions hc hc' Family.draw s data g).cases with
        ⟨e, q, ho, ho'⟩ | ⟨f, _, q, rfl, ho, ho'⟩
      · -- neither an operation nor a draw fails with an error that lists names
        have he := Error.isDrawing_of_draws (Instruction.draws_runAll _ _) ho
        rw [ho, ho', outcome, r.error_of_isDrawing he]
      · rw [ho, ho']; rfl
    · have hm' : c'.missing (r.state s) ≠ [] := by
        rw [hmissing]; exact fun h => hm (List.map_eq_nil_iff.1 h)
      rw [CompiledStep.run_of_missing hl hm, CompiledStep.run_of_missing hl' hm', hmissing]
      rfl
  · have hl' : data.length ≠ c'.data.length := fun h => hl (h.trans hlength)
    rw [CompiledStep.run_of_length_ne hl, CompiledStep.run_of_length_ne hl', hdata, hc'.name,
      hc.name]
    simp only [outcome, error, List.map_map]
    rfl

end Renaming

/-- **Names matter only through equality.**  A model with renamed names is refused exactly if
    the model is, with an error of the same class.  Otherwise its sweep over a state with
    renamed keys, whichever they are, has the renamed outcome of the sweep of the model: the
    same values in the same order, or the same error, which lists the renamed names in the same
    order, and the same randomness left.  An error of the sweep stays in its class. -/
theorem renamed_model (r : Renaming) (m : Model) :
    (∃ e e', m.compile.result = .error e ∧ (r.model m).compile.result = .error e' ∧
      e'.kind = e.kind) ∨
    ∃ c c', m.compile.result = .ok c ∧ (r.model m).compile.result = .ok c' ∧
      ∀ (s : State) (data : List Value) (g : Stream),
        (c'.sweep (r.state s) data).outcome g = r.outcome ((c.sweep s data).outcome g) ∧
        ∀ e q, (c.sweep s data).outcome g = (.error e, q) →
          ∃ e', (c'.sweep (r.state s) data).outcome g = (.error e', q) ∧ e'.kind = e.kind := by
  rcases verdict_cases (r.verdict_compile (m := m)) with ⟨e', e, he', he, hkind⟩ | ⟨c', c, hc', hc⟩
  · exact .inl ⟨e, e', he, he', hkind⟩
  · refine .inr ⟨c, c', hc, hc', fun s data g => ?_⟩
    have hsweep := r.outcome_sweep (Model.accepted hc) (Model.accepted hc') s data g
    refine ⟨hsweep, fun e q he => ⟨r.error e, ?_, r.kind_error e⟩⟩
    rw [hsweep, he]; rfl

/-! ## Names with an underscore in front -/

/-- The renaming that puts an underscore in front of every text. -/
def underscored : Renaming where
  text s := "_" ++ s
  injective s t h := by
    have hlist : '_' :: s.toList = '_' :: t.toList := by simpa using congrArg String.toList h
    exact String.ext (List.cons.inj hlist).2
  isIdentifier s h := by
    unfold Text.isIdentifier at h ⊢
    cases hs : s.toList with
    | nil => rw [hs] at h; cases h
    | cons c rest =>
      rw [hs, Bool.and_eq_true] at h
      have hlist : ("_" ++ s).toList = '_' :: c :: rest := by simp [hs]
      have hrest : (c :: rest).all Text.continuesIdentifier = true := by
        rw [List.all_cons, Text.continuesIdentifier_of_opens h.1, h.2]; rfl
      rw [hlist]
      exact Bool.and_eq_true_iff.2 ⟨rfl, hrest⟩

/-- The model that draws its variable twice, over a state with an entry more, and the model that
    reads an intermediate value too early. -/
theorem redrawing_renamed :
    (∃ c c', redrawing.compile.result = .ok c ∧
      (underscored.model redrawing).compile.result = .ok c' ∧
      (underscored.state redrawingStart).entries = [("_z", .int 0), ("_x", .int 3)] ∧
      ∀ g, (c'.sweep (underscored.state redrawingStart) []).outcome g
        = underscored.outcome ((c.sweep redrawingStart []).outcome g)) ∧
    ∃ e, (underscored.model earlyReading).compile.result = .error e ∧
      e.kind = .undefinedVariable := by
  constructor
  · rcases renamed_model underscored redrawing with ⟨e, _, he, -⟩ | ⟨c, c', hc, hc', hsweep⟩
    · cases he
    · exact ⟨c, c', hc, hc', rfl, fun g => (hsweep redrawingStart [] g).1⟩
  · rcases renamed_model underscored earlyReading with ⟨e, e', he, he', hkind⟩ | ⟨c, _, hc, -⟩
    · cases he
      exact ⟨e', he', hkind⟩
    · cases hc

end Gibbs
