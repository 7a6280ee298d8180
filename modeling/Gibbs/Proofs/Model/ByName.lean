/-
  Sweeps by name: the statements of a model run on a frame without being compiled first.

  A variable is looked up by its name, among the drawn variables of the state, the data
  arguments or the values assigned so far.  For an accepted model the compiled instructions
  do the same, since every place was chosen by the name.

  * `Model.Accepted`: what is known of a compiled model and its step;
  * `checkReferences_eq_ok`: what the check of references says;
  * `Expr.eval_compile`: compiled code has the value that the names give the expression;
  * `runAll_instructions`: the compiled sweep is the sweep by name.
-/
import Gibbs.Model.Compile
import Gibbs.Proofs.Except

namespace Gibbs

variable {σ : Type}

/-! ## Accepted models -/

/-- What is known of a model and the step that it was compiled to. -/
structure Model.Accepted (m : Model) (c : CompiledStep) : Prop where
  check : m.check = .ok ()
  instructions : m.statements.mapM (fun s => s.compile m.place?) = .ok c.instructions
  name : c.name = m.name
  data : c.data = m.data
  sampled : c.sampled = m.sampledNames
  scopes : c.scopes = m.scopes

theorem Model.accepted {m : Model} {c : CompiledStep} (h : m.compile.result = .ok c) :
    m.Accepted c := by
  unfold Model.compile at h
  cases hi : m.instructions with
  | error e => rw [hi] at h; cases h
  | ok is =>
    rw [hi] at h
    obtain ⟨t, -, h⟩ := bind_eq_ok.1 (show m.stepOf is = .ok c from h)
    cases h
    obtain ⟨⟨⟩, hc, hi⟩ := bind_eq_ok.1 hi
    exact ⟨hc, hi, rfl, rfl, rfl, rfl⟩

theorem Model.Accepted.references {m : Model} {c : CompiledStep} (h : m.Accepted c) :
    checkReferences (m.sampledNames ++ m.data) m.statements = .ok () := by
  obtain ⟨⟨⟩, -, hr⟩ := bind_eq_ok.1 h.check
  exact hr

theorem undefinedName?_eq_none {defined : List Name} {st : Statement} :
    Model.undefinedName? defined st = none ↔ ∀ n ∈ st.names, n ∈ defined := by
  simp [Model.undefinedName?]

theorem mem_definedAfter {defined : List Name} {st : Statement} {n : Name} :
    n ∈ Model.definedAfter defined st ↔ n ∈ defined ∨ st.assigned? = some n := by
  cases st with
  | sample x d => simp [Model.definedAfter, Statement.assigned?]
  | assign x e => simp [Model.definedAfter, Statement.assigned?, or_comm, eq_comm]

/-- **The check of references** passes exactly if every name of a statement is defined from
    the start or assigned by an earlier statement. -/
theorem checkReferences_eq_ok : ∀ {sts : List Statement} {defined : List Name},
    Model.checkReferences defined sts = .ok () ↔
      ∀ done st rest, sts = done ++ st :: rest → ∀ n ∈ st.names,
        n ∈ defined ∨ ∃ t ∈ done, t.assigned? = some n
  | [], _ => by simp [Model.checkReferences]
  | s :: sts, defined => by
    unfold Model.checkReferences
    cases hu : Model.undefinedName? defined s with
    | some x =>
      refine ⟨fun h => ?_, fun h => ?_⟩
      · obtain ⟨_, -, h⟩ := bind_eq_ok.1 h; cases h
      · have hn : ∀ n ∈ s.names, n ∈ defined := fun n hn => by
          simpa using h [] s sts rfl n hn
        rw [undefinedName?_eq_none.2 hn] at hu; cases hu
    | none =>
      simp only [checkReferences_eq_ok, mem_definedAfter]
      constructor
      · intro h done st rest hsplit n hn
        cases done with
        | nil =>
          cases hsplit
          exact Or.inl (undefinedName?_eq_none.1 hu n hn)
        | cons t done =>
          cases hsplit
          rcases h done st rest rfl n hn with (h | h) | ⟨t', ht', h⟩
          · exact Or.inl h
          · exact Or.inr ⟨s, List.mem_cons_self, h⟩
          · exact Or.inr ⟨t', List.mem_cons_of_mem _ ht', h⟩
      · rintro h done st rest rfl n hn
        rcases h (s :: done) st rest rfl n hn with h' | ⟨t, ht, h'⟩
        · exact Or.inl (Or.inl h')
        · rcases List.mem_cons.1 ht with rfl | ht
          · exact Or.inl (Or.inr h')
          · exact Or.inr ⟨t, ht, h'⟩

/-! ## Looking up names -/

/-- A value that should be there. -/
def present (f : Fault) : Option Value → Except Error Value
  | some v => .ok v
  | none => .error (.fault f)

/-- What a name of a model stands for in a frame. -/
def Model.valueOf (m : Model) (f : Frame) (n : Name) : Except Error Value :=
  if n ∈ m.sampledNames then present .missingKey (f.state.get? n.text)
  else if n ∈ m.data then present .badIndex f.data[m.data.idxOf n]?
  else present .missingKey (f.locals.lookup n)

/-- **The place of a name** holds what the name stands for. -/
theorem read_place {m : Model} {n : Name} {p : Place} (h : m.place? n = some p) (f : Frame) :
    f.read p = m.valueOf f n := by
  unfold Model.place? Model.scope? at h
  by_cases hs : n ∈ m.sampledNames
  · simp only [List.contains_iff_mem.2 hs, if_true, Option.some.injEq] at h
    subst h
    simp only [Frame.read, Model.valueOf, hs, if_true]
    cases f.state.get? n.text <;> rfl
  have hs' : m.sampledNames.contains n = false := by simpa using hs
  by_cases hd : n ∈ m.data
  · simp only [hs', List.contains_iff_mem.2 hd, if_true, Bool.false_eq_true, if_false,
      Option.some.injEq] at h
    subst h
    simp only [Frame.read, Model.valueOf, hs, hd, if_true, if_false]
    cases f.data[m.data.idxOf n]? <;> rfl
  have hd' : m.data.contains n = false := by simpa using hd
  simp only [hs', hd', Bool.false_eq_true, if_false] at h
  by_cases hi : m.intermediateNames.contains n = true
  · simp only [hi, if_true, Option.some.injEq] at h
    subst h
    simp only [Frame.read, Model.valueOf, hs, hd, if_false]
    cases f.locals.lookup n <;> rfl
  · simp only [hi] at h; cases h

/-! ## Expressions and statements -/

/-- **Compiled code** has the value that the names give the expression. -/
theorem Expr.eval_compile {m : Model} (f : Frame) : ∀ {e : Expr} {c : Code},
    e.compile m.place? = .ok c → c.eval f = e.eval (m.valueOf f)
  | .var n, c, h => by
    unfold Expr.compile at h
    cases hp : m.place? n with
    | none => rw [hp] at h; cases h
    | some p => rw [hp] at h; cases h; exact read_place hp f
  | .literal v, c, h => by cases h; rfl
  | .bare, c, h => by cases h
  | .unary op e, c, h => by
    obtain ⟨d, hd, h⟩ := bind_eq_ok.1 h
    cases h
    rw [Code.eval, Expr.eval, eval_compile f hd]
  | .binary op l r, c, h => by
    obtain ⟨d, hd, h⟩ := bind_eq_ok.1 h
    obtain ⟨d', hd', h⟩ := bind_eq_ok.1 h
    cases h
    rw [Code.eval, Expr.eval, eval_compile f hd, eval_compile f hd']

namespace Statement

/-- A statement run on a frame by the names in it. -/
def run (m : Model) (draw : Drawing σ) (f : Frame) : Statement → Sampling σ Frame
  | sample n d => do
    let values ← Sampling.ofExcept (d.eval (m.valueOf f))
    return f.setState n (← draw d.family values)
  | assign n e => do
    let v ← Sampling.ofExcept (e.eval (m.valueOf f))
    return f.setLocal n v

/-- Statements run one after the other. -/
def runAll (m : Model) (draw : Drawing σ) : Frame → List Statement → Sampling σ Frame
  | f, [] => pure f
  | f, st :: rest => do
    let g ← st.run m draw f
    runAll m draw g rest

end Statement

theorem run_instruction {m : Model} {st : Statement} {i : Instruction}
    (h : st.compile m.place? = .ok i) (draw : Drawing σ) (f : Frame) :
    i.run draw f = st.run m draw f := by
  cases st with
  | sample n d =>
    obtain ⟨params, hp, h⟩ := bind_eq_ok.1 h
    cases h
    have hv : params.mapM (fun q => do return (q.1, ← q.2.eval f)) = d.eval (m.valueOf f) := by
      refine mapM_of_mapM (fun p q hq => ?_) hp
      obtain ⟨c, hc, hq⟩ := bind_eq_ok.1 hq
      cases hq
      simp only [Expr.eval_compile f hc]
    rw [Statement.run, ← hv]; rfl
  | assign n e =>
    obtain ⟨c, hc, h⟩ := bind_eq_ok.1 h
    cases h
    rw [Instruction.run, Statement.run, Expr.eval_compile f hc]

/-- **The compiled sweep is the sweep by name.** -/
theorem runAll_instructions {m : Model} (draw : Drawing σ) :
    ∀ {sts : List Statement} {is : List Instruction},
      sts.mapM (fun s => s.compile m.place?) = .ok is → ∀ f : Frame,
      Instruction.runAll draw f is = Statement.runAll m draw f sts
  | [], is, h, f => by cases h; rfl
  | st :: sts, is, h, f => by
    obtain ⟨i, rest, hi, hr, rfl⟩ := mapM_cons_eq_ok.1 h
    rw [Instruction.runAll, Statement.runAll, run_instruction hi draw f]
    exact congrArg _ (funext fun g => runAll_instructions draw hr g)

end Gibbs
