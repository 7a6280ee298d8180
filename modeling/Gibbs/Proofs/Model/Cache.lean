/-
  The step that a draft remembers is never out of date.

  A draft is called to add a statement, to compile, or to build a sampler, and any of these
  calls may fail.  Whatever was called before, its statements are the ones that were added, and
  the step it remembers is the step of these statements: a statement that is added makes the
  draft forget, and a call that fails changes at most what is remembered.

  * `Draft.Call`, `Draft.perform`: the calls and what they do; `Session.build_model`: a session
    builds as its draft does;
  * `perform_cases`, `compile_cases`: everything that a call can do;
  * `Draft.Current`: the invariant of the remembered step; `Draft.Owns`: the numbers of steps;
  * `compile_current`: any sequence of calls.
-/
import Gibbs.Session
import Gibbs.Proofs.Model.Dataflow

namespace Gibbs

namespace Draft

/-! ## Calls -/

/-- The sampler of the step of a draft, and the draft that remembers the step. -/
def build (d : Draft) (initial : State) (data : List Value) : Except Error Sampler × Draft :=
  match d.compile with
  | (.error e, d) => (.error e, d)
  | (.ok n, d) => (n.step.build initial data, d)

/-- A call of a draft. -/
inductive Call where
  /-- a statement to be added, or something that is no statement -/
  | add (given? : Option Statement)
  /-- a variable to be drawn, by its name as a text -/
  | sample (name : String) (d : Distribution)
  /-- an intermediate value, by its name as a text -/
  | assign (name : String) (o : Operand)
  | compile
  | build (initial : State) (data : List Value)

/-- What a call returns. -/
inductive Answer where
  /-- the draft itself, for the next call -/
  | draft
  | step (n : NumberedStep)
  | sampler (h : Sampler)

/-- The statement that a call makes, if it is one for a statement and makes one. -/
def Call.statement? : Call → Option Statement
  | add given? => given?
  | sample name d => (Statement.ofSample name d).toOption
  | assign name o => (Statement.ofAssign name o).toOption
  | compile => none
  | build _ _ => none

/-- A statement added to a draft, unless it could not be made. -/
def offer (d : Draft) : Except Error Statement → Except Error Answer × Draft
  | .ok st => (.ok .draft, d.add st)
  | .error e => (.error e, d)

/-- What a call does to a draft, and what it returns. -/
def perform (d : Draft) : Call → Except Error Answer × Draft
  | .add (some st) => d.offer (.ok st)
  | .add none => d.offer (.error (.fault .refusedArgument))
  | .sample name law => d.offer (Statement.ofSample name law)
  | .assign name o => d.offer (Statement.ofAssign name o)
  | .compile => (d.compile.1.map .step, d.compile.2)
  | .build initial data => ((d.build initial data).1.map .sampler, (d.build initial data).2)

/-- The draft after some calls. -/
def after (d : Draft) (calls : List Call) : Draft :=
  calls.foldl (fun d call => (d.perform call).2) d

theorem after_cons (d : Draft) (call : Call) (calls : List Call) :
    d.after (call :: calls) = (d.perform call).2.after calls := rfl

variable {d : Draft} {n : NumberedStep}

/-! ## What a call can do -/

/-- **Compiling** gives the remembered step, or else the step of the statements, which is
    remembered from then on. -/
theorem compile_cases (d : Draft) :
    (∃ n, d.compiled? = some n ∧ d.compile = (.ok n, d)) ∨
    (d.compiled? = none ∧ ∃ e, d.model.compile.result = .error e ∧ d.compile = (.error e, d)) ∨
    (d.compiled? = none ∧ ∃ c, d.model.compile.result = .ok c ∧
      d.compile = (.ok ⟨d.compilations, c⟩, { d with
        compiled? := some ⟨d.compilations, c⟩, compilations := d.compilations + 1 })) := by
  unfold compile
  cases hn : d.compiled? with
  | some n => exact .inl ⟨n, rfl, rfl⟩
  | none =>
    cases hc : d.model.compile.result with
    | error e => exact .inr (.inl ⟨rfl, e, rfl, rfl⟩)
    | ok c => exact .inr (.inr ⟨rfl, c, rfl, rfl⟩)

theorem build_eq (d : Draft) (initial : State) (data : List Value) :
    d.build initial data
      = (d.compile.1 >>= fun n => n.step.build initial data, d.compile.2) := by
  unfold build
  rcases d.compile with ⟨_ | n, d'⟩ <;> rfl

/-- **A call** adds its statement, or fails and changes nothing, or compiles. -/
theorem perform_cases (d : Draft) (call : Call) :
    (∃ st, call.statement? = some st ∧ d.perform call = (.ok .draft, d.add st)) ∨
    (call.statement? = none ∧ ∃ e, d.perform call = (.error e, d)) ∨
    (call.statement? = none ∧ (d.perform call).1 ≠ .ok .draft ∧
      (d.perform call).2 = d.compile.2) := by
  have offered : ∀ x : Except Error Statement,
      (∃ st, x.toOption = some st ∧ d.offer x = (.ok .draft, d.add st)) ∨
      (x.toOption = none ∧ ∃ e, d.offer x = (.error e, d)) := by
    rintro (e | st)
    · exact .inr ⟨rfl, e, rfl⟩
    · exact .inl ⟨st, rfl, rfl⟩
  cases call with
  | add given? =>
    cases given? with
    | some st => exact .inl ⟨st, rfl, rfl⟩
    | none => exact .inr (.inl ⟨rfl, _, rfl⟩)
  | sample name law => exact (offered (Statement.ofSample name law)).imp_right .inl
  | assign name o => exact (offered (Statement.ofAssign name o)).imp_right .inl
  | compile =>
    refine .inr (.inr ⟨rfl, ?_, rfl⟩)
    rw [perform]
    rcases d.compile.1 with _ | n <;> exact nofun
  | build initial data =>
    refine .inr (.inr ⟨rfl, ?_, ?_⟩)
    · rw [perform]
      rcases (d.build initial data).1 with _ | h <;> exact nofun
    · rw [perform, build_eq]

theorem model_compile (d : Draft) : d.compile.2.model = d.model := by
  rcases d.compile_cases with ⟨n, -, h⟩ | ⟨-, e, -, h⟩ | ⟨-, c, -, h⟩ <;> rw [h]

theorem perform_eq_draft_iff (d : Draft) (call : Call) :
    (d.perform call).1 = .ok .draft ↔ ∃ st, call.statement? = some st := by
  rcases d.perform_cases call with ⟨st, hst, hd⟩ | ⟨hst, e, hd⟩ | ⟨hst, hne, -⟩
  · exact ⟨fun _ => ⟨st, hst⟩, fun _ => by rw [hd]⟩
  · simp [hd, hst]
  · simp [hne, hst]

/-- **A call that fails** changes neither the statements nor what compiling gives. -/
theorem perform_error (d : Draft) {call : Call} {e : Error} {d' : Draft}
    (h : d.perform call = (.error e, d')) :
    d'.model = d.model ∧ d'.compile.1 = d.compile.1 := by
  rcases d.perform_cases call with ⟨st, -, hd⟩ | ⟨-, e', hd⟩ | ⟨-, -, hd⟩
  · rw [hd] at h; cases h
  · rw [hd] at h; cases h; exact ⟨rfl, rfl⟩
  · obtain rfl : d' = d.compile.2 := by rw [← hd, h]
    exact ⟨d.model_compile, by rw [compile_compile]⟩

/-! ## The remembered step -/

/-- A remembered step is the step of the statements, and its number was given out. -/
structure Current (d : Draft) : Prop where
  step : ∀ n, d.compiled? = some n → d.model.compile.result = .ok n.step
  number : ∀ n, d.compiled? = some n → n.number < d.compilations

namespace Current

theorem ofModel (m : Model) : (Draft.ofModel m).Current := ⟨nofun, nofun⟩

theorem add (d : Draft) (st : Statement) : (d.add st).Current := ⟨nofun, nofun⟩

theorem compile (h : d.Current) : d.compile.2.Current := by
  rcases d.compile_cases with ⟨n, -, hd⟩ | ⟨-, e, -, hd⟩ | ⟨-, c, hc, hd⟩
  · rw [hd]; exact h
  · rw [hd]; exact h
  · rw [hd]
    constructor
    · rintro _ ⟨⟩; exact hc
    · rintro _ ⟨⟩; exact Nat.lt_succ_self d.compilations

theorem perform (h : d.Current) (call : Call) : (d.perform call).2.Current := by
  rcases d.perform_cases call with ⟨st, -, hd⟩ | ⟨-, e, hd⟩ | ⟨-, -, hd⟩
  · rw [hd]; exact add d st
  · rw [hd]; exact h
  · rw [hd]; exact h.compile

theorem after (h : d.Current) (calls : List Call) : (d.after calls).Current := by
  induction calls generalizing d with
  | nil => exact h
  | cons call calls ih => exact ih (h.perform call)

/-- **What compiling gives:** the step of the statements, or their error. -/
theorem map_step_compile (h : d.Current) :
    d.compile.1.map NumberedStep.step = d.model.compile.result := by
  rcases d.compile_cases with ⟨n, hn, hd⟩ | ⟨-, e, he, hd⟩ | ⟨-, c, hc, hd⟩
  · rw [hd, h.step n hn]; rfl
  · rw [hd, he]; rfl
  · rw [hd, hc]; rfl

theorem result_of_compile (h : d.Current) (hn : d.compile.1 = .ok n) :
    d.model.compile.result = .ok n.step := by
  rw [← h.map_step_compile, hn]; rfl

end Current

/-! ## Numbers -/

/-- The number of a step was given out, and no other step has it. -/
structure Owns (d : Draft) (n : NumberedStep) : Prop where
  made : n.number < d.compilations
  remembered : ∀ n', d.compiled? = some n' → n'.number = n.number → n' = n

theorem Owns.compile (h : d.Owns n) : d.compile.2.Owns n := by
  rcases d.compile_cases with ⟨n', -, hd⟩ | ⟨-, e, -, hd⟩ | ⟨-, c, -, hd⟩
  · rw [hd]; exact h
  · rw [hd]; exact h
  · rw [hd]
    refine ⟨Nat.lt_succ_of_lt h.made, ?_⟩
    rintro _ ⟨⟩ hnumber
    exact absurd hnumber (Nat.ne_of_gt h.made)

theorem Owns.after (h : d.Owns n) (calls : List Call) : (d.after calls).Owns n := by
  induction calls generalizing d with
  | nil => exact h
  | cons call calls ih =>
    refine ih (d := (d.perform call).2) ?_
    rcases d.perform_cases call with ⟨st, -, hd⟩ | ⟨-, e, hd⟩ | ⟨-, -, hd⟩
    · rw [hd]; exact ⟨h.made, nofun⟩
    · rw [hd]; exact h
    · rw [hd]; exact h.compile

/-- A draft owns the step that it is compiled to. -/
theorem Current.owns_compile (h : d.Current) (hn : d.compile.1 = .ok n) : d.compile.2.Owns n := by
  rcases d.compile_cases with ⟨n', hn', hd⟩ | ⟨-, e, -, hd⟩ | ⟨-, c, -, hd⟩
  · rw [hd] at hn ⊢
    cases hn
    refine ⟨h.number n hn', fun n'' hn'' _ => ?_⟩
    exact Option.some.inj (hn''.symm.trans hn')
  · rw [hd] at hn; cases hn
  · rw [hd] at hn ⊢
    cases hn
    refine ⟨Nat.lt_succ_self d.compilations, ?_⟩
    rintro _ ⟨⟩ _; rfl

/-- **A number stands for one step.** -/
theorem Owns.eq_of_compile (h : d.Owns n) {n' : NumberedStep} (hn : d.compile.1 = .ok n')
    (hnumber : n'.number = n.number) : n' = n := by
  rcases d.compile_cases with ⟨n'', hn'', hd⟩ | ⟨-, e, -, hd⟩ | ⟨-, c, -, hd⟩
  · rw [hd] at hn
    cases hn
    exact h.remembered n' hn'' hnumber
  · rw [hd] at hn; cases hn
  · rw [hd] at hn
    cases hn
    exact absurd hnumber (Nat.ne_of_gt h.made)

/-! ## Sequences of calls -/

/-- **The statements** are the ones that were added, in order. -/
theorem model_after (calls : List Call) (d : Draft) : (d.after calls).model
    = { d.model with statements := d.model.statements ++ calls.filterMap Call.statement? } := by
  induction calls generalizing d with
  | nil => simp [after]
  | cons call calls ih =>
    rw [after_cons, ih, List.filterMap_cons]
    rcases d.perform_cases call with ⟨st, hst, hd⟩ | ⟨hst, e, hd⟩ | ⟨hst, -, hd⟩
    · simp [hd, hst, add, Model.add]
    · rw [hd, hst]
    · rw [hd, hst, model_compile]

/-- Calls that add nothing leave a remembered step alone. -/
theorem compile_after (hn : d.compiled? = some n) : ∀ calls : List Call,
    (∀ call ∈ calls, call.statement? = none) → (d.after calls).compile.1 = .ok n
  | [], _ => by
    change d.compile.1 = .ok n
    unfold compile; rw [hn]
  | call :: calls, h => by
    have hsame : (d.perform call).2 = d := by
      rcases d.perform_cases call with ⟨st, hst, -⟩ | ⟨-, e, hd⟩ | ⟨-, -, hd⟩
      · rw [h call List.mem_cons_self] at hst; cases hst
      · rw [hd]
      · rw [hd]; unfold compile; rw [hn]
    rw [after_cons, hsame]
    exact compile_after hn calls fun c hc => h c (List.mem_cons_of_mem _ hc)

theorem compiled?_of_compile (hn : d.compile.1 = .ok n) : d.compile.2.compiled? = some n := by
  rcases d.compile_cases with ⟨n', hn', hd⟩ | ⟨-, e, -, hd⟩ | ⟨-, c, -, hd⟩
  · rw [hd] at hn ⊢; cases hn; exact hn'
  · rw [hd] at hn; cases hn
  · rw [hd] at hn ⊢; cases hn; rfl

/-- **What is compiled is never out of date.**  After any calls on a model, the statements are
    the ones that were added; a call that fails changes neither them nor what compiling gives;
    compiling gives the step of the statements or their error, and building builds this step.
    A step does what the statements did when it was compiled, and it is given again until a
    statement is added; no other step has its number. -/
theorem compile_current (m : Model) (calls : List Call) :
    let d := (ofModel m).after calls
    d.model = { m with statements := m.statements ++ calls.filterMap Call.statement? } ∧
    (∀ call, (d.perform call).1 = .ok .draft ↔ ∃ st, call.statement? = some st) ∧
    (∀ call e d', d.perform call = (.error e, d') →
      d'.model = d.model ∧ d'.compile.1 = d.compile.1) ∧
    d.compile.1.map NumberedStep.step = d.model.compile.result ∧
    (∀ initial data, (d.build initial data).1
      = d.model.compile.result >>= fun c => c.build initial data) ∧
    ∀ n, d.compile.1 = .ok n →
      (∀ (σ : Type) (draw : Drawing σ) s data,
        (∀ x ∈ d.model.sampledNames, s.has x.text = true) → data.length = d.model.data.length →
        n.step.run draw s data = Statement.runAll d.model draw ⟨s, [], data⟩ d.model.statements
          >>= fun f => pure f.state) ∧
      ∀ more,
        ((∀ call ∈ more, call.statement? = none) →
          (d.compile.2.after more).compile.1 = .ok n) ∧
        ∀ n', (d.compile.2.after more).compile.1 = .ok n' → n'.number = n.number → n' = n := by
  intro d
  have hcurrent : d.Current := (Current.ofModel m).after calls
  refine ⟨model_after calls (ofModel m), fun call => d.perform_eq_draft_iff call,
    fun call e d' h => d.perform_error h, hcurrent.map_step_compile,
    fun initial data => ?_, fun n hn => ⟨fun σ draw s data hs hdata => ?_, fun more => ⟨?_, ?_⟩⟩⟩
  · rw [build_eq, ← hcurrent.map_step_compile]
    rcases d.compile.1 with _ | n <;> rfl
  · exact run_accepted (Model.accepted (hcurrent.result_of_compile hn)) hs hdata draw
  · exact compile_after (compiled?_of_compile hn) more
  · exact fun n' => ((hcurrent.owns_compile hn).after more).eq_of_compile

/-- Calls of a draft without statements: it is compiled too early, given a wrong name and
    something that is no statement, then given a statement and compiled, built with data that
    it does not take, and compiled again. -/
def interrupted : List Call :=
  let law : Distribution := ⟨.normal, [("mu", .var ⟨"x", isIdentifier_x⟩),
    ("sigma", .literal (.int 1))]⟩
  [.compile, .sample "1x" law, .add none, .sample "x" law, .compile,
    .build redrawingStart [.int 0], .compile]

/-- Seven calls, four of which fail, leave one statement and one step; the next statement makes
    another step. -/
theorem interrupted_current :
    let d := (ofModel ⟨⟨"x", isIdentifier_x⟩, [], []⟩).after interrupted
    d.model.statements = interrupted.filterMap Call.statement? ∧ d.model.statements.length = 1 ∧
    ∃ n, d.compile.1 = .ok n ∧ n.number = 0 ∧ d.model.compile.result = .ok n.step ∧
      (d.compile.2.after [.add none, .compile]).compile.1 = .ok n ∧
      ∃ n', (d.compile.2.after [.assign "z" (.node (.var ⟨"x", isIdentifier_x⟩))]).compile.1
        = .ok n' ∧ n'.number = 1 := by
  intro d
  obtain ⟨hmodel, -, -, hstep, -, hn⟩ :=
    compile_current ⟨⟨"x", isIdentifier_x⟩, [], []⟩ interrupted
  obtain ⟨n, hc, hnumber⟩ : ∃ n, d.compile.1 = .ok n ∧ n.number = 0 := ⟨_, rfl, rfl⟩
  refine ⟨congrArg Model.statements hmodel, rfl, n, hc, hnumber, ?_, ?_, ⟨_, rfl, rfl⟩⟩
  · rw [← hstep, hc]; rfl
  · exact ((hn n hc).2 [.add none, .compile]).1 (by simp [Call.statement?])

end Draft

/-- A session builds as its draft does. -/
theorem Session.build_model (s : Session) (initial : State) (data : List Value) :
    ((s.build .model initial data).1, (s.build .model initial data).2.draft)
      = s.draft.build initial data := by
  unfold Session.build Draft.build
  rcases s.draft.compile with ⟨e | n, d⟩
  · rfl
  · cases h : n.step.build initial data <;> simp [Except.map, h]

end Gibbs
