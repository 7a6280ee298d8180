/-
  Sweeps by name that know when a name stands for nothing.

  The interpreter runs the statements of a model on a frame and looks every variable up by its
  name: among the drawn variables of the state, among the data arguments under their names, and
  among the values assigned so far.  It stops at a name that stands for nothing, and at an
  operation or a draw that fails, and tells the two apart.

  * `Model.binding?`, `Model.interpret`: what a name stands for, and the interpreter;
  * `Frame.Defines`: the names that stand for something in a frame are those that the check of
    references takes for defined; every statement keeps this;
  * `interpretAll_of_checked`, `interpretAll_of_undefined`: the interpreter on statements that
    pass the check, and on statements that do not;
  * `compile_checks_names`: the check of references is exact.
-/
import Gibbs.Proofs.Model.Acceptance

namespace Gibbs

variable {σ : Type}

/-! ## The interpreter -/

/-- Why a sweep by names stops before its end. -/
inductive Halt where
  /-- at a name that stands for nothing -/
  | unbound (name : Name)
  /-- at an operation or a draw that fails -/
  | failed (e : Error)

/-- What a name stands for in a frame: a drawn variable for its entry of the state, any other
    name for the data argument that is given under it, or else for the local value. -/
def Model.binding? (m : Model) (f : Frame) (n : Name) : Option Value :=
  if n ∈ m.sampledNames then f.state.get? n.text
  else ((m.data.zip f.data).lookup n).or (f.locals.lookup n)

/-- The value of an expression under a table of names, operands from left to right. -/
def Expr.interpret (binding? : Name → Option Value) : Expr → Except Halt Value
  | var n => match binding? n with
    | some v => .ok v
    | none => .error (.unbound n)
  | literal v => .ok v
  | bare => .error (.failed (.fault .noAttribute))
  | unary op e => do
    let v ← e.interpret binding?
    (orError (op.run v)).mapError .failed
  | binary op l r => do
    let v ← l.interpret binding?
    let w ← r.interpret binding?
    (orError (op.run v w)).mapError .failed

/-- The values of the parameters of a distribution under a table of names. -/
def Distribution.interpret (binding? : Name → Option Value) (d : Distribution) :
    Except Halt (List (String × Value)) :=
  d.parents.mapM fun (k, e) => do return (k, ← e.interpret binding?)

namespace Statement

/-- A statement interpreted in a frame, with what is left of the randomness. -/
def interpret (m : Model) (draw : Drawing σ) (f : Frame) (r : σ) :
    Statement → Except Halt Frame × σ
  | sample n d => match d.interpret (m.binding? f) with
    | .error h => (.error h, r)
    | .ok values => match (draw d.family values).outcome r with
      | (.error e, r') => (.error (.failed e), r')
      | (.ok v, r') => (.ok (f.setState n v), r')
  | assign n e => ((e.interpret (m.binding? f)).map (f.setLocal n), r)

/-- Statements interpreted one after the other, up to the first one that stops. -/
def interpretAll (m : Model) (draw : Drawing σ) :
    Frame → σ → List Statement → Except Halt Frame × σ
  | f, r, [] => (.ok f, r)
  | f, r, st :: rest => match st.interpret m draw f r with
    | (.error h, r') => (.error h, r')
    | (.ok g, r') => interpretAll m draw g r' rest

end Statement

/-- One sweep by names, from a state with data arguments. -/
def Model.interpret (m : Model) (draw : Drawing σ) (s : State) (data : List Value) (r : σ) :
    Except Halt State × σ :=
  let (result, r') := Statement.interpretAll m draw ⟨s, [], data⟩ r m.statements
  (result.map Frame.state, r')

/-! ## Expressions in which every name stands for something -/

theorem Expr.interpret_of_bound {binding? : Name → Option Value}
    {lookup : Name → Except Error Value} {e : Expr}
    (h : ∀ n ∈ e.occurrences, ∃ v, binding? n = some v ∧ lookup n = .ok v) :
    e.interpret binding? = (e.eval lookup).mapError .failed := by
  induction e with
  | var n =>
    obtain ⟨v, hb, hl⟩ := h n (List.mem_singleton_self n)
    rw [interpret, eval, hb, hl]; rfl
  | literal v => rfl
  | bare => rfl
  | unary op e ih =>
    rw [interpret, eval, ih h]
    cases e.eval lookup <;> rfl
  | binary op l r ihl ihr =>
    rw [interpret, eval, ihl fun n hn => h n (List.mem_append_left _ hn),
      ihr fun n hn => h n (List.mem_append_right _ hn)]
    cases l.eval lookup with
    | error e => rfl
    | ok v => cases r.eval lookup <;> rfl

theorem Distribution.interpret_of_bound {binding? : Name → Option Value}
    {lookup : Name → Except Error Value} {d : Distribution}
    (h : ∀ n ∈ d.names, ∃ v, binding? n = some v ∧ lookup n = .ok v) :
    d.interpret binding? = (d.eval lookup).mapError .failed := by
  refine mapM_mapError fun ⟨k, e⟩ hp => ?_
  have he : e.interpret binding? = (e.eval lookup).mapError .failed := by
    refine Expr.interpret_of_bound fun n hn => h n ?_
    exact List.mem_eraseDups.2 (List.mem_flatMap.2 ⟨(k, e), hp, List.mem_eraseDups.2 hn⟩)
  simp only [he]
  cases e.eval lookup <;> rfl

/-! ## Expressions in which some name stands for nothing -/

/-- A computation that stops at a name, unless something fails before. -/
def StopsAt {α : Type} (x : Name) (result : Except Halt α) : Prop :=
  result = .error (.unbound x) ∨ ∃ e, result = .error (.failed e)

theorem StopsAt.bind {α β : Type} {x : Name} {result : Except Halt α} (h : StopsAt x result)
    (f : α → Except Halt β) : StopsAt x (result >>= f) := by
  rcases h with rfl | ⟨e, rfl⟩
  · exact .inl rfl
  · exact .inr ⟨e, rfl⟩

/-- A computation that stops at a name if it comes to an end, since all that precedes it either
    fails or comes to an end. -/
theorem StopsAt.of_bind {α β : Type} {x : Name} {result : Except Error α}
    {f : α → Except Halt β} (h : ∀ a, StopsAt x (f a)) :
    StopsAt x (result.mapError Halt.failed >>= f) := by
  cases result with
  | error e => exact .inr ⟨e, rfl⟩
  | ok a => exact h a

/-- A table of names as a look-up that may fail. -/
def found (binding? : Name → Option Value) (n : Name) : Except Error Value :=
  present .missingKey (binding? n)

theorem exists_found {binding? : Name → Option Value} {n : Name} (h : binding? n ≠ none) :
    ∃ v, binding? n = some v ∧ found binding? n = .ok v := by
  obtain ⟨v, hv⟩ := Option.ne_none_iff_exists'.1 h
  exact ⟨v, hv, by rw [found, hv]; rfl⟩

/-- **The first name that stands for nothing** is where the evaluation stops, unless an
    operation fails before. -/
theorem Expr.interpret_of_unbound {binding? : Name → Option Value} {x : Name} {e : Expr}
    (h : e.occurrences.find? (fun n => (binding? n).isNone) = some x) :
    StopsAt x (e.interpret binding?) := by
  induction e with
  | var n =>
    cases hv : binding? n with
    | some v => simp [occurrences, hv] at h
    | none =>
      have hx : n = x := by simpa [occurrences, hv] using h
      rw [interpret, hv, hx]
      exact .inl rfl
  | literal v => cases h
  | bare => cases h
  | unary op e ih => exact (ih h).bind _
  | binary op l r ihl ihr =>
    rw [occurrences, List.find?_append] at h
    cases hl : l.occurrences.find? (fun n => (binding? n).isNone) with
    | some y =>
      rw [hl] at h; cases h
      exact (ihl hl).bind _
    | none =>
      rw [hl] at h
      have hbound : l.interpret binding? = (l.eval (found binding?)).mapError .failed :=
        interpret_of_bound fun n hn => exists_found (by simpa using List.find?_eq_none.1 hl n hn)
      rw [interpret, hbound]
      exact .of_bind fun v => (ihr h).bind _

theorem interpret_parents_of_unbound {binding? : Name → Option Value} {x : Name} :
    ∀ {ps : List (String × Expr)},
      (ps.flatMap fun (_, e) => e.names).find? (fun n => (binding? n).isNone) = some x →
      StopsAt x (ps.mapM fun (k, e) => do return (k, ← e.interpret binding?))
  | [], h => by cases h
  | (k, e) :: ps, h => by
    simp only [List.flatMap_cons, List.find?_append, Expr.names, find?_eraseDups] at h
    rw [List.mapM_cons, bind_assoc]
    cases he : e.occurrences.find? (fun n => (binding? n).isNone) with
    | some y =>
      rw [he] at h; cases h
      exact (Expr.interpret_of_unbound he).bind _
    | none =>
      rw [he] at h
      have hbound : e.interpret binding? = (e.eval (found binding?)).mapError .failed :=
        Expr.interpret_of_bound fun n hn =>
          exists_found (by simpa using List.find?_eq_none.1 he n hn)
      rw [hbound]
      exact .of_bind fun v => (interpret_parents_of_unbound h).bind _

/-! ## Names in frames -/

/-- A name that stands for something has that value for compiled code. -/
theorem valueOf_of_binding? {m : Model} {f : Frame} {n : Name} {v : Value}
    (hd : f.data.length = m.data.length) (h : m.binding? f n = some v) :
    m.valueOf f n = .ok v := by
  unfold Model.binding? at h
  unfold Model.valueOf
  rw [lookup_zip n hd] at h
  split_ifs at h ⊢ with hs hn
  · rw [h]; rfl
  · have hi : m.data.idxOf n < f.data.length := by rw [hd]; exact List.idxOf_lt_length_of_mem hn
    rw [List.getElem?_eq_getElem hi] at h ⊢
    cases h; rfl
  · have hi : f.data.length ≤ m.data.idxOf n :=
      Nat.le_of_eq (hd.trans (List.idxOf_eq_length hn).symm)
    rw [List.getElem?_eq_none hi] at h
    rw [show f.locals.lookup n = some v from h]; rfl

/-- A frame in which exactly the defined names stand for something. -/
structure Frame.Defines (m : Model) (defined : List Name) (f : Frame) : Prop where
  state : ∀ n ∈ m.sampledNames, f.state.has n.text = true
  data : f.data.length = m.data.length
  bound : ∀ n, (m.binding? f n).isSome = true ↔ n ∈ defined

namespace Frame.Defines

variable {m : Model} {defined : List Name} {f : Frame}

theorem start {s : State} {data : List Value}
    (hs : ∀ n ∈ m.sampledNames, s.has n.text = true) (hd : data.length = m.data.length) :
    Defines m (m.sampledNames ++ m.data) ⟨s, [], data⟩ where
  state := hs
  data := hd
  bound n := by
    unfold Model.binding?
    split_ifs with hn
    · simp [hn, State.isSome_get?_of_has (hs n hn)]
    · rw [lookup_zip n hd, List.lookup_nil, Option.or_none, List.mem_append, or_iff_right hn,
        ← List.idxOf_lt_length_iff, ← hd]
      simp

/-- A draw into the state defines nothing new. -/
theorem sample (h : f.Defines m defined) {n : Name} (d : Distribution) (v : Value)
    (hn : n ∈ m.sampledNames) :
    (f.setState n v).Defines m (Model.definedAfter defined (.sample n d)) where
  state x hx := by
    have hk := State.has_iff.1 (h.state n hn)
    rw [State.has_iff, show (f.setState n v).state = f.state.set n.text v from rfl,
      State.keys_set, if_pos hk]
    exact State.has_iff.1 (h.state x hx)
  data := h.data
  bound x := by
    rw [show Model.definedAfter defined (.sample n d) = defined from rfl, ← h.bound x]
    unfold Model.binding?
    by_cases hx : x ∈ m.sampledNames
    · simp only [if_pos hx]
      by_cases hxn : x = n
      · subst hxn
        rw [show (f.setState x v).state.get? x.text = some v from State.get?_set_self _ _ _]
        simp [State.isSome_get?_of_has (h.state x hx)]
      · have ht : x.text ≠ n.text := fun e => hxn (Name.ext_text e)
        rw [show (f.setState n v).state.get? x.text = f.state.get? x.text from
          State.get?_set_of_ne ht _ _]
    · simp only [if_neg hx]; rfl

/-- An assignment defines its name. -/
theorem assign (h : f.Defines m defined) (n : Name) (e : Expr) (v : Value) :
    (f.setLocal n v).Defines m (Model.definedAfter defined (.assign n e)) where
  state := h.state
  data := h.data
  bound x := by
    rw [mem_definedAfter, ← h.bound x]
    unfold Model.binding? Frame.setLocal
    by_cases hx : x ∈ m.sampledNames
    · have hs := State.isSome_get?_of_has (h.state x hx)
      simp [hx, hs]
    · by_cases hxn : x = n
      · subst hxn; simp [hx, Statement.assigned?]
      · have hb : (x == n) = false := by simpa using hxn
        have hne : ¬ n = x := fun e => hxn e.symm
        simp [hx, List.lookup_cons, hb, Statement.assigned?, hne]

end Frame.Defines

/-! ## Statements -/

/-- The outcome of compiled code, worded as one of the interpreter. -/
def Halt.ofOutcome {α : Type} (x : Except Error α × σ) : Except Halt α × σ :=
  (x.1.mapError .failed, x.2)

namespace Statement

variable {m : Model} {defined : List Name} {f : Frame} {st : Statement}

/-- A statement of which every name is defined does what the compiled one does. -/
theorem interpret_of_defined (hf : f.Defines m defined)
    (hn : ∀ n ∈ st.names, n ∈ defined) (draw : Drawing σ) (r : σ) :
    st.interpret m draw f r = Halt.ofOutcome ((st.run m draw f).outcome r) := by
  have hb : ∀ n ∈ st.names, ∃ v, m.binding? f n = some v ∧ m.valueOf f n = .ok v := by
    intro n hmem
    obtain ⟨v, hv⟩ := Option.isSome_iff_exists.1 ((hf.bound n).2 (hn n hmem))
    exact ⟨v, hv, valueOf_of_binding? hf.data hv⟩
  cases st with
  | sample x d =>
    rw [interpret, outcome_run_sample, Distribution.interpret_of_bound hb]
    cases d.eval (m.valueOf f) with
    | error e => rfl
    | ok values =>
      simp only [Except.mapError]
      rcases (draw d.family values).outcome r with ⟨_ | _, _⟩ <;> rfl
  | assign x e =>
    have he : e.interpret (m.binding? f) = (e.eval (m.valueOf f)).mapError .failed :=
      Expr.interpret_of_bound fun n hmem => hb n (List.mem_eraseDups.2 hmem)
    rw [interpret, outcome_run_assign, he]
    cases e.eval (m.valueOf f) <;> rfl

/-- A statement with an undefined name stops at the first one, unless something fails before. -/
theorem interpret_of_undefined (hf : f.Defines m defined) {x : Name}
    (hx : Model.undefinedName? defined st = some x) (draw : Drawing σ) (r : σ) :
    StopsAt x (st.interpret m draw f r).1 := by
  have hp : (fun n => !defined.contains n) = fun n => (m.binding? f n).isNone := by
    funext n
    rw [Bool.eq_iff_iff, Bool.not_eq_true', List.contains_eq_mem, decide_eq_false_iff_not,
      ← hf.bound n, Option.not_isSome_iff_eq_none, Option.isNone_iff_eq_none]
  rw [Model.undefinedName?, hp] at hx
  cases st with
  | sample y d =>
    rw [names, Distribution.names, find?_eraseDups] at hx
    rcases interpret_parents_of_unbound hx with h | ⟨e, h⟩
    · rw [interpret, Distribution.interpret, h]; exact .inl rfl
    · rw [interpret, Distribution.interpret, h]; exact .inr ⟨e, rfl⟩
  | assign y e =>
    rw [names, Expr.names, find?_eraseDups] at hx
    rcases Expr.interpret_of_unbound hx with h | ⟨e', h⟩
    · rw [interpret, h]; exact .inl rfl
    · rw [interpret, h]; exact .inr ⟨e', rfl⟩

/-- **Every statement keeps the frame in step** with the names that the check takes for
    defined. -/
theorem defines_of_run (hf : f.Defines m defined) {draw : Drawing σ} {r r' : σ} {g : Frame}
    (hs : ∀ n, st.sampled? = some n → n ∈ m.sampledNames)
    (h : (st.run m draw f).outcome r = (.ok g, r')) :
    g.Defines m (Model.definedAfter defined st) := by
  cases st with
  | sample n d =>
    rw [outcome_run_sample] at h
    cases hv : d.eval (m.valueOf f) with
    | error e => rw [hv] at h; cases h
    | ok values =>
      simp only [hv] at h
      rcases ho : (draw d.family values).outcome r with ⟨_ | v, _⟩
      · rw [ho] at h; cases h
      · rw [ho] at h; cases h
        exact hf.sample d v (hs n rfl)
  | assign n e =>
    rw [outcome_run_assign] at h
    cases hv : e.eval (m.valueOf f) with
    | error e' => rw [hv] at h; cases h
    | ok v =>
      rw [hv] at h; cases h
      exact hf.assign n e v

end Statement

/-! ## Which errors are about an undefined name -/

/-- The errors about an undefined name. -/
def Error.isUndefinedName : Error → Bool
  | undefinedName _ _ => true
  | _ => false

theorem Error.isUndefinedName_of_kind {err : Error} (h : err.kind = .notImplemented) :
    err.isUndefinedName = false := by
  cases err with
  | undefinedName t x => cases h
  | _ => rfl

theorem Expr.isUndefinedName_of_compile {place? : Name → Option Place} {e : Expr} {err : Error}
    (h : e.compile place? = .error err) : err.isUndefinedName = false := by
  induction e with
  | var n =>
    rw [compile] at h
    cases hp : place? n with
    | none => rw [hp] at h; cases h; rfl
    | some p => rw [hp] at h; cases h
  | literal v => cases h
  | bare => cases h; rfl
  | unary op e ih =>
    rcases bind_eq_error.1 h with h | ⟨c, -, h⟩
    · exact ih h
    · cases h
  | binary op l r ihl ihr =>
    rcases bind_eq_error.1 h with h | ⟨c, -, h⟩
    · exact ihl h
    · rcases bind_eq_error.1 h with h | ⟨d, -, h⟩
      · exact ihr h
      · cases h

theorem Statement.isUndefinedName_of_compile {place? : Name → Option Place} {st : Statement}
    {err : Error} (h : st.compile place? = .error err) : err.isUndefinedName = false := by
  cases st with
  | sample n d =>
    rcases bind_eq_error.1 h with h | ⟨params, -, h⟩
    · obtain ⟨⟨k, e⟩, -, h⟩ := mapM_eq_error h
      rcases bind_eq_error.1 h with h | ⟨c, -, h⟩
      · exact Expr.isUndefinedName_of_compile h
      · cases h
    · cases h
  | assign n e =>
    rcases bind_eq_error.1 h with h | ⟨c, -, h⟩
    · exact Expr.isUndefinedName_of_compile h
    · cases h

/-- **An undefined name is reported by the check of references** and by nothing else. -/
theorem Model.checkReferences_of_compile {m : Model} {t x : String}
    (h : m.compile.result = .error (.undefinedName t x)) :
    checkReferences (m.sampledNames ++ m.data) m.statements = .error (.undefinedName t x) := by
  have hno : ∀ {err : Error}, err.isUndefinedName = false → err ≠ .undefinedName t x := by
    rintro _ h rfl; cases h
  unfold compile at h
  cases hi : m.instructions with
  | error e =>
    rw [hi] at h
    cases h
    rcases bind_eq_error.1 hi with hc | ⟨_, -, hc⟩
    · rcases bind_eq_error.1 hc with hn | ⟨_, -, hr⟩
      · have hdecl := isDeclaration_of_checkNames hn
        cases hdecl
      · exact hr
    · obtain ⟨st, -, hst⟩ := mapM_eq_error hc
      exact absurd rfl (hno (Statement.isUndefinedName_of_compile hst))
  | ok is =>
    rw [hi] at h
    rcases bind_eq_error.1 (show m.stepOf is = .error _ from h) with hs | ⟨_, -, hs⟩
    · exact absurd rfl (hno (Error.isUndefinedName_of_kind (kind_of_source hs)))
    · cases hs

/-! ## Sweeps -/

namespace Model

/-- The names that the check of references takes for defined after some statements. -/
def definedBy (defined : List Name) (done : List Statement) : List Name :=
  done.foldl definedAfter defined

theorem checkReferences_cons_eq_ok {defined : List Name} {st : Statement}
    {rest : List Statement} : checkReferences defined (st :: rest) = .ok () ↔
      undefinedName? defined st = none ∧
        checkReferences (definedAfter defined st) rest = .ok () := by
  rw [checkReferences]
  cases undefinedName? defined st with
  | none => simp
  | some n =>
    refine iff_of_false (fun h => ?_) fun h => by cases h.1
    obtain ⟨_, -, h⟩ := bind_eq_ok.1 h; cases h

theorem undefinedName?_of_checked {st : Statement} {rest : List Statement} :
    ∀ (done : List Statement) {defined : List Name},
      checkReferences defined (done ++ st :: rest) = .ok () →
      undefinedName? (definedBy defined done) st = none
  | [], _, h => (checkReferences_cons_eq_ok.1 h).1
  | _ :: done, _, h => undefinedName?_of_checked done (checkReferences_cons_eq_ok.1 h).2

end Model

variable {m : Model}

/-- A frame that statements lead to is in step with the names that they define. -/
theorem defines_of_runAll {draw : Drawing σ} :
    ∀ (sts : List Statement) {f g : Frame} {defined : List Name} {r r' : σ},
      f.Defines m defined →
      (∀ st ∈ sts, ∀ n, st.sampled? = some n → n ∈ m.sampledNames) →
      (Statement.runAll m draw f sts).outcome r = (.ok g, r') →
      g.Defines m (Model.definedBy defined sts)
  | [], f, g, defined, r, r', hf, _, h => by cases h; exact hf
  | st :: rest, f, g, defined, r, r', hf, hs, h => by
    rw [Statement.runAll, Sampling.outcome_bind] at h
    rcases hst : (st.run m draw f).outcome r with ⟨_ | f', q⟩
    · rw [hst] at h; cases h
    · rw [hst] at h
      exact defines_of_runAll rest
        (Statement.defines_of_run hf (hs st List.mem_cons_self) hst)
        (fun st' hmem => hs st' (List.mem_cons_of_mem _ hmem)) h

/-- **Statements that pass the check** are interpreted as the compiled ones are run. -/
theorem interpretAll_of_checked (draw : Drawing σ) :
    ∀ {sts : List Statement} {f : Frame} {defined : List Name} {r : σ},
      f.Defines m defined →
      (∀ st ∈ sts, ∀ n, st.sampled? = some n → n ∈ m.sampledNames) →
      Model.checkReferences defined sts = .ok () →
      Statement.interpretAll m draw f r sts
        = Halt.ofOutcome ((Statement.runAll m draw f sts).outcome r)
  | [], f, defined, r, _, _, _ => rfl
  | st :: rest, f, defined, r, hf, hs, hc => by
    obtain ⟨hu, hc⟩ := Model.checkReferences_cons_eq_ok.1 hc
    rw [Statement.interpretAll, Statement.runAll, Sampling.outcome_bind,
      Statement.interpret_of_defined hf (undefinedName?_eq_none.1 hu)]
    rcases hst : (st.run m draw f).outcome r with ⟨e | g, r'⟩
    · rfl
    · exact interpretAll_of_checked draw
        (Statement.defines_of_run hf (hs st List.mem_cons_self) hst)
        (fun st' hmem => hs st' (List.mem_cons_of_mem _ hmem)) hc

/-- **Statements with an undefined name** stop at the name that the check reports, unless
    something fails before. -/
theorem interpretAll_of_undefined (draw : Drawing σ) {t x : String} : ∀ {sts : List Statement}
    {defined : List Name}, (∀ st ∈ sts, ∀ n, st.sampled? = some n → n ∈ m.sampledNames) →
    Model.checkReferences defined sts = .error (.undefinedName t x) →
    ∃ n : Name, n.text = x ∧ ∀ (f : Frame) (r : σ), f.Defines m defined →
      StopsAt n (Statement.interpretAll m draw f r sts).1
  | [], _, _, hc => by cases hc
  | st :: rest, defined, hs, hc => by
    rw [Model.checkReferences] at hc
    cases hu : Model.undefinedName? defined st with
    | some n =>
      rw [hu] at hc
      have hn : n.text = x := by
        rcases bind_eq_error.1 hc with ht | ⟨u, -, ht⟩
        · have hno := Error.isUndefinedName_of_kind (Statement.kind_of_text ht); cases hno
        · cases ht; rfl
      refine ⟨n, hn, fun f r hf => ?_⟩
      have hstop := Statement.interpret_of_undefined hf hu draw r
      rw [Statement.interpretAll]
      rcases hst : st.interpret m draw f r with ⟨h | g, r'⟩
      · rw [hst] at hstop; exact hstop
      · rw [hst] at hstop
        rcases hstop with h | ⟨e, h⟩ <;> cases h
    | none =>
      rw [hu] at hc
      obtain ⟨n, hn, ih⟩ := interpretAll_of_undefined draw
        (fun st' hmem => hs st' (List.mem_cons_of_mem _ hmem)) hc
      refine ⟨n, hn, fun f r hf => ?_⟩
      rw [Statement.interpretAll,
        Statement.interpret_of_defined hf (undefinedName?_eq_none.1 hu)]
      rcases hst : (st.run m draw f).outcome r with ⟨e | g, r'⟩
      · exact .inr ⟨e, rfl⟩
      · exact ih g r' (Statement.defines_of_run hf (hs st List.mem_cons_self) hst)

/-! ## Places that instructions read -/

/-- The places that code reads. -/
def Code.places : Code → List Place
  | read p => [p]
  | literal _ => []
  | unary _ c => c.places
  | binary _ c d => c.places ++ d.places

/-- The places that an instruction reads. -/
def Instruction.places : Instruction → List Place
  | .draw _ _ params => params.flatMap fun (_, c) => c.places
  | .compute _ c => c.places

theorem Expr.place_of_compile {place? : Name → Option Place} {p : Place} : ∀ {e : Expr} {c : Code},
    e.compile place? = .ok c → p ∈ c.places → ∃ n ∈ e.occurrences, place? n = some p
  | .var n, c, h, hp => by
    rw [compile] at h
    cases hn : place? n with
    | none => rw [hn] at h; cases h
    | some q =>
      rw [hn] at h; cases h
      cases List.mem_singleton.1 hp
      exact ⟨n, List.mem_singleton_self n, hn⟩
  | .literal v, c, h, hp => by cases h; cases hp
  | .bare, c, h, _ => by cases h
  | .unary op e, c, h, hp => by
    obtain ⟨d, hd, h⟩ := bind_eq_ok.1 h
    cases h
    exact place_of_compile (e := e) hd hp
  | .binary op l r, c, h, hp => by
    obtain ⟨d, hd, h⟩ := bind_eq_ok.1 h
    obtain ⟨d', hd', h⟩ := bind_eq_ok.1 h
    cases h
    rcases List.mem_append.1 hp with hp | hp
    · obtain ⟨n, hn, hp⟩ := place_of_compile (e := l) hd hp
      exact ⟨n, List.mem_append_left _ hn, hp⟩
    · obtain ⟨n, hn, hp⟩ := place_of_compile (e := r) hd' hp
      exact ⟨n, List.mem_append_right _ hn, hp⟩

/-- A compiled statement reads the places of its names. -/
theorem Statement.place_of_compile {place? : Name → Option Place} {st : Statement}
    {i : Instruction} {p : Place} (h : st.compile place? = .ok i) (hp : p ∈ i.places) :
    ∃ n ∈ st.names, place? n = some p := by
  cases st with
  | sample x d =>
    obtain ⟨params, hps, h⟩ := bind_eq_ok.1 h
    cases h
    obtain ⟨⟨k, c⟩, hc, hp⟩ := List.mem_flatMap.1 hp
    obtain ⟨⟨k', e⟩, he, hec⟩ := exists_of_mem_mapM hps hc
    obtain ⟨c', hc', hec⟩ := bind_eq_ok.1 hec
    cases hec
    obtain ⟨n, hn, hp⟩ := Expr.place_of_compile hc' hp
    refine ⟨n, List.mem_eraseDups.2 (List.mem_flatMap.2 ⟨(k, e), he, ?_⟩), hp⟩
    exact List.mem_eraseDups.2 hn
  | assign x e =>
    obtain ⟨c, hc, h⟩ := bind_eq_ok.1 h
    cases h
    obtain ⟨n, hn, hp⟩ := Expr.place_of_compile hc hp
    exact ⟨n, List.mem_eraseDups.2 hn, hp⟩

/-- A place of a name that stands for something can be read. -/
theorem Frame.Defines.read {f : Frame} {defined : List Name} (hf : f.Defines m defined) {n : Name}
    (hn : n ∈ defined) {p : Place} (hp : m.place? n = some p) : ∃ v, f.read p = .ok v := by
  obtain ⟨v, hv⟩ := Option.isSome_iff_exists.1 ((hf.bound n).2 hn)
  exact ⟨v, (read_place hp f).trans (valueOf_of_binding? hf.data hv)⟩

/-! ## The check of references -/

/-- **The check of references is exact.**  Take a state with values for all drawn variables and
    as many data arguments as a model declares.  If the model is accepted, every place that an
    instruction reads holds a value in the frame in which the instruction starts, and the
    compiled sweep ends as the sweep by names does: with the same state or the same error, and
    the same randomness left.  If the model is refused for an undefined name, the sweep by names
    stops at this very name, unless an operation or a draw fails before. -/
theorem compile_checks_names (m : Model) {s : State}
    (hs : ∀ n ∈ m.sampledNames, s.has n.text = true) {data : List Value}
    (hd : data.length = m.data.length) (draw : Drawing σ) (r : σ) :
    (∀ c, m.compile.result = .ok c →
      (∀ done i rest g r', c.instructions = done ++ i :: rest →
        (Instruction.runAll draw ⟨s, [], data⟩ done).outcome r = (.ok g, r') →
        ∀ p ∈ i.places, ∃ v, g.read p = .ok v) ∧
      m.interpret draw s data r = Halt.ofOutcome ((c.run draw s data).outcome r)) ∧
    ∀ t x, m.compile.result = .error (.undefinedName t x) → ∃ n : Name, n.text = x ∧
      ((m.interpret draw s data r).1 = .error (.unbound n) ∨
        ∃ e, (m.interpret draw s data r).1 = .error (.failed e)) := by
  have hstart : Frame.Defines m (m.sampledNames ++ m.data) ⟨s, [], data⟩ := .start hs hd
  have hsampled : ∀ st ∈ m.statements, ∀ n, st.sampled? = some n → n ∈ m.sampledNames :=
    fun st hst n hn => mem_sampledNames.2 ⟨st, hst, hn⟩
  refine ⟨fun c hc => ⟨?_, ?_⟩, ?_⟩
  · intro done i rest g r' hsplit hrun p hp
    have hm := (Model.accepted hc).instructions
    rw [hsplit] at hm
    obtain ⟨sts, st, sts', hsts, hdone, hst⟩ := mapM_eq_ok_append_cons hm
    rw [runAll_instructions draw hdone] at hrun
    have hg := defines_of_runAll sts hstart (fun st' hmem => hsampled st' (by
      rw [hsts]; exact List.mem_append_left _ hmem)) hrun
    have hrefs := (Model.accepted hc).references
    rw [hsts] at hrefs
    obtain ⟨n, hn, hplace⟩ := Statement.place_of_compile hst hp
    exact hg.read (undefinedName?_eq_none.1 (Model.undefinedName?_of_checked sts hrefs) n hn) hplace
  · rw [Model.interpret,
      interpretAll_of_checked draw hstart hsampled (Model.accepted hc).references,
      run_accepted (Model.accepted hc) hs hd, Sampling.outcome_bind]
    rcases (Statement.runAll m draw ⟨s, [], data⟩ m.statements).outcome r with ⟨_ | _, _⟩ <;> rfl
  · intro t x hc
    obtain ⟨n, hn, hstop⟩ :=
      interpretAll_of_undefined draw hsampled (Model.checkReferences_of_compile hc)
    refine ⟨n, hn, ?_⟩
    rw [Model.interpret]
    rcases hstop ⟨s, [], data⟩ r hstart with h | ⟨e, h⟩
    · exact .inl (by simp only [h]; rfl)
    · exact .inr ⟨e, by simp only [h]; rfl⟩

/-- The model that reads too early stops at the value that it reads, also from a state with an
    entry of that name; the one that draws its variable twice is interpreted as its step runs. -/
theorem earlyReading_stops :
    (∀ n ∈ earlyReading.sampledNames, redrawingStart.has n.text = true) ∧
    (∀ n ∈ redrawing.sampledNames, redrawingStart.has n.text = true) ∧
    ([] : List Value).length = earlyReading.data.length ∧
    ([] : List Value).length = redrawing.data.length ∧
    (∃ n : Name, n.text = "z" ∧
      (earlyReading.interpret counting redrawingStart [] 5).1 = .error (.unbound n)) ∧
    ∃ c, redrawing.compile.result = .ok c ∧
      redrawing.interpret counting redrawingStart [] 5
        = Halt.ofOutcome ((c.run counting redrawingStart []).outcome 5) := by
  have hs : ∀ n ∈ earlyReading.sampledNames, redrawingStart.has n.text = true := by decide
  have hs' : ∀ n ∈ redrawing.sampledNames, redrawingStart.has n.text = true := by decide
  have hd : ([] : List Value).length = earlyReading.data.length := rfl
  have hd' : ([] : List Value).length = redrawing.data.length := rfl
  refine ⟨hs, hs', hd, hd', ?_, ?_⟩
  · obtain ⟨t, ht⟩ : ∃ t, earlyReading.compile.result = .error (.undefinedName t "z") := ⟨_, rfl⟩
    obtain ⟨n, hn, h | ⟨e, h⟩⟩ :=
      (compile_checks_names earlyReading hs hd counting 5).2 t "z" ht
    · exact ⟨n, hn, h⟩
    · cases (show (earlyReading.interpret counting redrawingStart [] 5).1
        = .error (.unbound ⟨"z", by decide⟩) from rfl).symm.trans h
  · obtain ⟨c, hc⟩ : ∃ c, redrawing.compile.result = .ok c := ⟨_, rfl⟩
    exact ⟨c, hc, ((compile_checks_names redrawing hs' hd' counting 5).1 c hc).2⟩

end Gibbs
