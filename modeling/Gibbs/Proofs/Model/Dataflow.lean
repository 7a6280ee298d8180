/-
  The dataflow of a sweep: which values its statements see, and what it leaves behind.

  The statements of a sweep are followed by their results.  Before a statement, a drawn
  variable stands for the result of the last statement before it that draws the variable,
  or else for its value in the input state; an intermediate value stands for the result of
  its last assignment; a data name stands for the argument at its position.

  * `Model.meaning?`: what a name stands for, given the statements carried out so far;
  * `Model.Performs`, `Model.Fails`: statements carried out, or failing, with the draws they
    ask for;
  * `Drawing.noted`: a drawing that notes what it is asked for;
  * `Frame.Follows`: the invariant of a frame, kept by every statement;
  * `sweep_performs`: the compiled sweep performs its statements up to the first failure.
-/
import Gibbs.Proofs.Model.ByName
import Mathlib.Tactic.SplitIfs

namespace Gibbs

variable {σ : Type}

/-! ## Results so far -/

/-- Statements that were carried out, in order, each with its result. -/
abbrev Past := List (Statement × Value)

/-- The result of the last statement to which `nameOf` gives the name `n`. -/
def lastResult (nameOf : Statement → Option Name) (past : Past) (n : Name) : Option Value :=
  (past.reverse.find? fun p => nameOf p.1 == some n).map Prod.snd

theorem lastResult_append_singleton (nameOf : Statement → Option Name) (past : Past)
    (st : Statement) (v : Value) (n : Name) :
    lastResult nameOf (past ++ [(st, v)]) n
      = if nameOf st = some n then some v else lastResult nameOf past n := by
  unfold lastResult
  rw [List.reverse_append, List.reverse_singleton, List.singleton_append, List.find?_cons]
  by_cases h : nameOf st = some n
  · simp [h]
  · have hb : (nameOf st == some n) = false := by simpa using h
    simp [h, hb]

/-- Some statement has the name exactly if the name has a last result. -/
theorem lastResult_isSome {nameOf : Statement → Option Name} {past : Past} {n : Name} :
    (lastResult nameOf past n).isSome = true ↔ ∃ st ∈ past.map Prod.fst, nameOf st = some n := by
  simp only [lastResult, Option.isSome_map, List.find?_isSome, List.mem_reverse, beq_iff_eq,
    List.mem_map]
  constructor
  · rintro ⟨p, hp, hn⟩; exact ⟨p.1, ⟨p, hp, rfl⟩, hn⟩
  · rintro ⟨_, ⟨p, hp, rfl⟩, hn⟩; exact ⟨p, hp, hn⟩

namespace Model

/-- What a name stands for in a sweep from a state with data arguments, after some of the
    statements. -/
def meaning? (m : Model) (s : State) (data : List Value) (past : Past) (n : Name) :
    Option Value :=
  if n ∈ m.sampledNames then (lastResult Statement.sampled? past n).or (s.get? n.text)
  else if n ∈ m.data then data[m.data.idxOf n]?
  else lastResult Statement.assigned? past n

/-- The value that an expression finds under a name. -/
def lookup (m : Model) (s : State) (data : List Value) (past : Past) (n : Name) :
    Except Error Value := present .missingKey (m.meaning? s data past n)

end Model

/-! ## Requests -/

/-- A request for one draw. -/
structure Request where
  family : Family
  values : List (String × Value)

/-- A drawing that notes its requests, in order. -/
def Drawing.noted (draw : Drawing σ) : Drawing (σ × List Request) :=
  fun family values (r, requests) =>
    let (v, r') := (draw family values).outcome r
    (v, r', requests ++ [⟨family, values⟩])

theorem Drawing.outcome_noted (draw : Drawing σ) (family : Family)
    (values : List (String × Value)) (r : σ) (requests : List Request) :
    (draw.noted family values).outcome (r, requests)
      = (((draw family values).outcome r).1, ((draw family values).outcome r).2,
          requests ++ [⟨family, values⟩]) := rfl

/-- A computation that keeps notes, besides doing what another one does. -/
def Sampling.Notes {τ α : Type} (x : Sampling (σ × τ) α) (y : Sampling σ α) : Prop :=
  ∀ r t, y.outcome r = ((x.outcome (r, t)).1, (x.outcome (r, t)).2.1)

theorem Sampling.Notes.bind {τ α β : Type} {x : Sampling (σ × τ) α} {y : Sampling σ α}
    {f : α → Sampling (σ × τ) β} {g : α → Sampling σ β} (hx : x.Notes y)
    (hf : ∀ a, (f a).Notes (g a)) : (x >>= f).Notes (y >>= g) := by
  intro r t
  rw [outcome_bind, outcome_bind, hx r t]
  rcases x.outcome (r, t) with ⟨_ | a, r', t'⟩
  · rfl
  · exact hf a r' t'

theorem Sampling.Notes.ofExcept {τ α : Type} (x : Except Error α) :
    (Sampling.ofExcept x : Sampling (σ × τ) α).Notes (Sampling.ofExcept x) := fun _ _ => rfl

/-- A sweep between two statements. -/
structure Progress (σ : Type) where
  past : Past
  requests : List Request
  /-- the randomness that is left -/
  left : σ

/-- A sweep before its first statement. -/
def Progress.start (r : σ) : Progress σ := ⟨[], [], r⟩

/-! ## Statements carried out -/

namespace Model

/-- Statements carried out one after the other.  A drawing statement takes the values of all
    parameters and asks for one draw. -/
inductive Performs (m : Model) (draw : Drawing σ) (s : State) (data : List Value) :
    List Statement → Progress σ → Progress σ → Prop
  | nil {p} : Performs m draw s data [] p p
  | sample {n d rest values v r p q} : d.eval (m.lookup s data p.past) = .ok values →
      (draw d.family values).outcome p.left = (.ok v, r) →
      Performs m draw s data rest
        ⟨p.past ++ [(.sample n d, v)], p.requests ++ [⟨d.family, values⟩], r⟩ q →
      Performs m draw s data (.sample n d :: rest) p q
  | assign {n e rest v p q} : e.eval (m.lookup s data p.past) = .ok v →
      Performs m draw s data rest ⟨p.past ++ [(.assign n e, v)], p.requests, p.left⟩ q →
      Performs m draw s data (.assign n e :: rest) p q

/-- A statement that fails: in its parameters, in its draw, or in its value. -/
inductive Fails (m : Model) (draw : Drawing σ) (s : State) (data : List Value) :
    Statement → Progress σ → Error → Progress σ → Prop
  | parameters {n d err p} : d.eval (m.lookup s data p.past) = .error err →
      Fails m draw s data (.sample n d) p err p
  | draw {n d values err r p} : d.eval (m.lookup s data p.past) = .ok values →
      (draw d.family values).outcome p.left = (.error err, r) →
      Fails m draw s data (.sample n d) p err ⟨p.past, p.requests ++ [⟨d.family, values⟩], r⟩
  | value {n e err p} : e.eval (m.lookup s data p.past) = .error err →
      Fails m draw s data (.assign n e) p err p

/-- Statements of which one fails; the ones before it are carried out. -/
def Breaks (m : Model) (draw : Drawing σ) (s : State) (data : List Value) (sts : List Statement)
    (p : Progress σ) (err : Error) (q : Progress σ) : Prop :=
  ∃ done st rest p', sts = done ++ st :: rest ∧ m.Performs draw s data done p p' ∧
    m.Fails draw s data st p' err q

variable {m : Model} {draw : Drawing σ} {s : State} {data : List Value}

theorem Fails.breaks {st : Statement} {rest : List Statement} {p q : Progress σ} {err : Error}
    (h : m.Fails draw s data st p err q) : m.Breaks draw s data (st :: rest) p err q :=
  ⟨[], st, rest, p, rfl, .nil, h⟩

theorem Performs.statements {sts : List Statement} {p q : Progress σ}
    (h : m.Performs draw s data sts p q) :
    q.past.map Prod.fst = p.past.map Prod.fst ++ sts := by
  induction h with
  | nil => simp
  | sample _ _ _ ih => rw [ih]; simp
  | assign _ _ ih => rw [ih]; simp

end Model

/-- The family that a statement draws from, if it draws. -/
def Statement.family? : Statement → Option Family
  | sample _ d => some d.family
  | assign _ _ => none

/-- **One request for every drawing statement**, in the order of the statements. -/
theorem Model.Performs.families {m : Model} {draw : Drawing σ} {s : State} {data : List Value}
    {sts : List Statement} {p q : Progress σ} (h : m.Performs draw s data sts p q) :
    q.requests.map Request.family
      = p.requests.map Request.family ++ sts.filterMap Statement.family? := by
  induction h with
  | nil => simp
  | sample _ _ _ ih => rw [ih]; simp [Statement.family?]
  | assign _ _ ih => rw [ih, List.filterMap_cons]; rfl

/-! ## The invariant of a frame -/

/-- A frame holds what a sweep from a state with data arguments has done so far. -/
structure Frame.Follows (m : Model) (s : State) (data : List Value) (past : Past)
    (f : Frame) : Prop where
  keys : f.state.keys = s.keys
  drawn : ∀ n : Name,
    f.state.get? n.text = (lastResult Statement.sampled? past n).or (s.get? n.text)
  others : ∀ k, k ∉ m.sampledNames.map Name.text → f.state.get? k = s.get? k
  locals : ∀ n, f.locals.lookup n = lastResult Statement.assigned? past n
  data : f.data = data

namespace Frame.Follows

variable {m : Model} {s : State} {data : List Value} {past : Past} {f : Frame}

theorem start (m : Model) (s : State) (data : List Value) :
    Follows m s data [] ⟨s, [], data⟩ where
  keys := rfl
  drawn _ := rfl
  others _ _ := rfl
  locals _ := rfl
  data := rfl

/-- **Names in the frame** stand for what they mean after the statements so far. -/
theorem valueOf (hf : f.Follows m s data past) (hd : data.length = m.data.length) :
    m.valueOf f = m.lookup s data past := by
  funext n
  unfold Model.valueOf Model.lookup Model.meaning?
  split_ifs with h1 h2
  · rw [hf.drawn]
  · have hi : m.data.idxOf n < data.length := by rw [hd]; exact List.idxOf_lt_length_of_mem h2
    rw [hf.data, List.getElem?_eq_getElem hi]; rfl
  · rw [hf.locals]

/-- A draw goes into the state, to the name that it is made for. -/
theorem sample (hf : f.Follows m s data past) {n : Name} {d : Distribution} (v : Value)
    (hn : n ∈ m.sampledNames) (hk : n.text ∈ s.keys) :
    (f.setState n v).Follows m s data (past ++ [(.sample n d, v)]) where
  keys := by
    show (f.state.set n.text v).keys = s.keys
    rw [State.keys_set, hf.keys, if_pos hk]
  drawn x := by
    show (f.state.set n.text v).get? x.text = _
    rw [lastResult_append_singleton]
    by_cases hx : n = x
    · subst hx; simp [Statement.sampled?]
    · have ht : x.text ≠ n.text := fun h => hx (Name.ext_text h.symm)
      rw [State.get?_set_of_ne ht, hf.drawn x]; simp [Statement.sampled?, hx]
  others k hk' := by
    show (f.state.set n.text v).get? k = _
    have ht : k ≠ n.text := fun h => hk' (h ▸ List.mem_map_of_mem hn)
    rw [State.get?_set_of_ne ht, hf.others k hk']
  locals x := by
    show f.locals.lookup x = _
    rw [lastResult_append_singleton]; simpa [Statement.assigned?] using hf.locals x
  data := hf.data

/-- An intermediate value goes among the locals. -/
theorem assign (hf : f.Follows m s data past) (n : Name) (e : Expr) (v : Value) :
    (f.setLocal n v).Follows m s data (past ++ [(.assign n e, v)]) where
  keys := hf.keys
  drawn x := by
    show f.state.get? x.text = _
    rw [lastResult_append_singleton]; simpa [Statement.sampled?] using hf.drawn x
  others := hf.others
  locals x := by
    rw [lastResult_append_singleton]
    by_cases hx : n = x
    · subst hx; simp [Frame.setLocal, Statement.assigned?]
    · have hb : (x == n) = false := by simpa using fun h : x = n => hx h.symm
      simpa [Frame.setLocal, Statement.assigned?, hx, List.lookup_cons, hb] using hf.locals x
  data := hf.data

end Frame.Follows

/-! ## Sweeps -/

theorem outcome_run_sample (m : Model) (draw : Drawing σ) (f : Frame) (n : Name)
    (d : Distribution) (r : σ) :
    ((Statement.sample n d).run m draw f).outcome r = match d.eval (m.valueOf f) with
      | .error e => (.error e, r)
      | .ok values => match (draw d.family values).outcome r with
        | (.error e, r') => (.error e, r')
        | (.ok v, r') => (.ok (f.setState n v), r') := by
  rw [Statement.run, Sampling.outcome_bind, Sampling.outcome_ofExcept]
  cases d.eval (m.valueOf f) with
  | error e => rfl
  | ok values =>
    simp only [Sampling.outcome_bind]
    rcases (draw d.family values).outcome r with ⟨_ | _, _⟩ <;> rfl

theorem outcome_run_assign (m : Model) (draw : Drawing σ) (f : Frame) (n : Name) (e : Expr)
    (r : σ) :
    ((Statement.assign n e).run m draw f).outcome r
      = ((e.eval (m.valueOf f)).map (f.setLocal n), r) := by
  rw [Statement.run, Sampling.outcome_bind, Sampling.outcome_ofExcept]
  cases e.eval (m.valueOf f) <;> rfl

/-- Statements run on a frame that follows a sweep are carried out, up to the first one that
    fails. -/
theorem runAll_performs {m : Model} (draw : Drawing σ) {s : State} {data : List Value}
    (hd : data.length = m.data.length) : ∀ {sts : List Statement} {p : Progress σ} {f : Frame},
    (∀ st ∈ sts, ∀ n, st.sampled? = some n → n ∈ m.sampledNames ∧ n.text ∈ s.keys) →
    f.Follows m s data p.past →
    (∃ q g, m.Performs draw s data sts p q ∧ g.Follows m s data q.past ∧
      (Statement.runAll m draw.noted f sts).outcome (p.left, p.requests)
        = (.ok g, q.left, q.requests)) ∨
    ∃ err q, m.Breaks draw s data sts p err q ∧
      (Statement.runAll m draw.noted f sts).outcome (p.left, p.requests)
        = (.error err, q.left, q.requests)
  | [], p, f, _, hf => Or.inl ⟨p, f, .nil, hf, rfl⟩
  | .sample n d :: rest, p, f, hs, hf => by
    obtain ⟨hn, hk⟩ := hs _ List.mem_cons_self n rfl
    have hrest := fun st hst => hs st (List.mem_cons_of_mem _ hst)
    rw [Statement.runAll, Sampling.outcome_bind, outcome_run_sample, hf.valueOf hd]
    cases hv : d.eval (m.lookup s data p.past) with
    | error err => exact Or.inr ⟨err, p, (Model.Fails.parameters hv).breaks, rfl⟩
    | ok values =>
      simp only [Drawing.outcome_noted]
      rcases ho : (draw d.family values).outcome p.left with ⟨err | v, r⟩
      · exact Or.inr ⟨err, _, (Model.Fails.draw hv ho).breaks, rfl⟩
      · rcases runAll_performs draw hd (p := ⟨p.past ++ [(.sample n d, v)], _, r⟩) hrest
          (hf.sample v hn hk) with ⟨q, g, hp, hg, he⟩ | ⟨err, q, hb, he⟩
        · exact Or.inl ⟨q, g, .sample hv ho hp, hg, he⟩
        · obtain ⟨done, st, rest', p', rfl, hp, hfail⟩ := hb
          exact Or.inr ⟨err, q, ⟨_ :: done, st, rest', p', rfl, .sample hv ho hp, hfail⟩, he⟩
  | .assign n e :: rest, p, f, hs, hf => by
    have hrest := fun st hst => hs st (List.mem_cons_of_mem _ hst)
    rw [Statement.runAll, Sampling.outcome_bind, outcome_run_assign, hf.valueOf hd]
    cases hv : e.eval (m.lookup s data p.past) with
    | error err => exact Or.inr ⟨err, p, (Model.Fails.value hv).breaks, rfl⟩
    | ok v =>
      rcases runAll_performs draw hd (p := ⟨p.past ++ [(.assign n e, v)], p.requests, p.left⟩) hrest
        (hf.assign n e v) with ⟨q, g, hp, hg, he⟩ | ⟨err, q, hb, he⟩
      · exact Or.inl ⟨q, g, .assign hv hp, hg, he⟩
      · obtain ⟨done, st, rest', p', rfl, hp, hfail⟩ := hb
        exact Or.inr ⟨err, q, ⟨_ :: done, st, rest', p', rfl, .assign hv hp, hfail⟩, he⟩

/-- **Noting the requests** changes nothing. -/
theorem runAll_noted (m : Model) (draw : Drawing σ) : ∀ (sts : List Statement) (f : Frame),
    (Statement.runAll m draw.noted f sts).Notes (Statement.runAll m draw f sts)
  | [], _ => fun _ _ => rfl
  | st :: rest, f => by
    refine .bind ?_ fun g => runAll_noted m draw rest g
    cases st with
    | sample n d =>
      refine .bind (.ofExcept _) fun values => .bind ?_ fun v => ?_
      · exact fun _ _ => rfl
      · exact fun _ _ => rfl
    | assign n e => exact .bind (.ofExcept _) fun v _ _ => rfl

/-- The sweep of an accepted model from a state that has values for all drawn variables. -/
theorem run_accepted {m : Model} {c : CompiledStep} (hc : m.Accepted c) {s : State}
    (hs : ∀ n ∈ m.sampledNames, s.has n.text = true) {data : List Value}
    (hd : data.length = m.data.length) (draw : Drawing σ) :
    c.run draw s data
      = Statement.runAll m draw ⟨s, [], data⟩ m.statements >>= fun f => pure f.state := by
  have hm : c.missing s = [] := by
    simp only [CompiledStep.missing, hc.sampled, List.filter_eq_nil_iff, List.mem_map]
    rintro _ ⟨n, hn, rfl⟩
    simp [hs n hn]
  have hl : data.length = c.data.length := by rw [hc.data, hd]
  rw [CompiledStep.run_of_complete hl hm, runAll_instructions draw hc.instructions]

theorem mem_sampledNames {m : Model} {n : Name} :
    n ∈ m.sampledNames ↔ ∃ st ∈ m.statements, st.sampled? = some n := by
  simp [Model.sampledNames, List.mem_eraseDups]

/-- **Every name of a statement has a meaning** when the statement is reached. -/
theorem meaning?_isSome {m : Model} {c : CompiledStep} (hc : m.Accepted c) {s : State}
    (hs : ∀ n ∈ m.sampledNames, s.has n.text = true) {data : List Value}
    (hd : data.length = m.data.length) {done rest : List Statement} {st : Statement}
    (hsplit : m.statements = done ++ st :: rest) {past : Past}
    (hpast : past.map Prod.fst = done) :
    ∀ n ∈ st.names, (m.meaning? s data past n).isSome = true := by
  intro n hn
  unfold Model.meaning?
  split_ifs with h1 h2
  · rw [Option.isSome_or, State.isSome_get?_of_has (hs n h1), Bool.or_true]
  · have hi : m.data.idxOf n < data.length := by rw [hd]; exact List.idxOf_lt_length_of_mem h2
    rw [List.getElem?_eq_getElem hi]; rfl
  · rcases checkReferences_eq_ok.1 hc.references done st rest hsplit n hn with h | h
    · exact absurd (List.mem_append.1 h) (by simp [h1, h2])
    · exact lastResult_isSome.2 (by rw [hpast]; exact h)

/-- **Dataflow of a sweep.**  The compiled sweep of an accepted model carries out the
    statements in order, up to the first one that fails, which does not fail for want of a
    name.  Every drawing statement asks for exactly one draw, with the values that its
    expressions have when every name stands for what it means at that statement.  A finished
    sweep keeps the names of the input state and their order; it leaves the last draw of every
    drawn variable and changes nothing else. -/
theorem sweep_performs {m : Model} {c : CompiledStep} (hc : m.compile.result = .ok c)
    {s : State} (hs : ∀ n ∈ m.sampledNames, s.has n.text = true) {data : List Value}
    (hd : data.length = m.data.length) (draw : Drawing σ) (r : σ) :
    (∃ p t, m.Performs draw s data m.statements (.start r) p ∧
      (c.run draw.noted s data).outcome (r, []) = (.ok t, p.left, p.requests) ∧
      (c.run draw s data).outcome r = (.ok t, p.left) ∧
      p.past.map Prod.fst = m.statements ∧
      p.requests.map Request.family = m.statements.filterMap Statement.family? ∧
      t.keys = s.keys ∧
      (∀ n ∈ m.sampledNames, ∃ v, lastResult Statement.sampled? p.past n = some v ∧
        t.get? n.text = some v) ∧
      ∀ k, k ∉ m.sampledNames.map Name.text → t.get? k = s.get? k) ∨
    ∃ done st rest p err q, m.statements = done ++ st :: rest ∧
      m.Performs draw s data done (.start r) p ∧ m.Fails draw s data st p err q ∧
      (∀ n ∈ st.names, (m.meaning? s data p.past n).isSome = true) ∧
      (c.run draw.noted s data).outcome (r, []) = (.error err, q.left, q.requests) ∧
      (c.run draw s data).outcome r = (.error err, q.left) := by
  have ha := Model.accepted hc
  have hsts : ∀ st ∈ m.statements, ∀ n, st.sampled? = some n →
      n ∈ m.sampledNames ∧ n.text ∈ s.keys := by
    intro st hst n hn
    have hm := mem_sampledNames.2 ⟨st, hst, hn⟩
    exact ⟨hm, State.has_iff.1 (hs n hm)⟩
  have hnotes : (c.run draw.noted s data).Notes (c.run draw s data) := by
    rw [run_accepted ha hs hd, run_accepted ha hs hd]
    exact (runAll_noted m draw _ _).bind fun _ _ _ => rfl
  rcases runAll_performs draw hd (p := .start r) hsts (.start m s data) with
    ⟨p, f, hp, hf, he⟩ | ⟨err, p, hb, he⟩
  · have hn : (c.run draw.noted s data).outcome (r, []) = (.ok f.state, p.left, p.requests) := by
      rw [run_accepted ha hs hd, Sampling.outcome_bind,
        show (Statement.runAll m draw.noted ⟨s, [], data⟩ m.statements).outcome (r, []) = _ from he]
      rfl
    have hpast : p.past.map Prod.fst = m.statements := by simpa [Progress.start] using hp.statements
    refine Or.inl ⟨p, f.state, hp, hn, by rw [hnotes r [], hn], hpast, ?_, hf.keys, ?_, hf.others⟩
    · simpa [Progress.start] using hp.families
    · intro n hnm
      have hsome : (lastResult Statement.sampled? p.past n).isSome = true :=
        lastResult_isSome.2 (by rw [hpast]; exact mem_sampledNames.1 hnm)
      obtain ⟨v, hv⟩ := Option.isSome_iff_exists.1 hsome
      exact ⟨v, hv, by rw [hf.drawn n, hv]; rfl⟩
  · have hn : (c.run draw.noted s data).outcome (r, []) = (.error err, p.left, p.requests) := by
      rw [run_accepted ha hs hd, Sampling.outcome_bind,
        show (Statement.runAll m draw.noted ⟨s, [], data⟩ m.statements).outcome (r, []) = _ from he]
    obtain ⟨done, st, rest, p', hsplit, hp, hfail⟩ := hb
    exact Or.inr ⟨done, st, rest, p', err, p, hsplit, hp, hfail,
      meaning?_isSome ha hs hd hsplit (by simpa [Progress.start] using hp.statements), hn,
      by rw [hnotes r [], hn]⟩

/-! ## A variable drawn twice -/

theorem isIdentifier_x : Text.isIdentifier "x" = true := by decide

theorem isIdentifier_y : Text.isIdentifier "y" = true := by decide

theorem isIdentifier_z : Text.isIdentifier "z" = true := by decide

/-- A model that draws a variable, gives the draw a name of its own, and draws the variable
    again around it. -/
def redrawing : Model :=
  let x : Name := ⟨"x", by decide⟩
  let z : Name := ⟨"z", by decide⟩
  ⟨x, [], [.sample x ⟨.normal, [("mu", .var x), ("sigma", .literal (.int 1))]⟩,
    .assign z (.var x),
    .sample x ⟨.normal, [("mu", .var z), ("sigma", .literal (.int 1))]⟩]⟩

/-- A state in which the variable is 3 and something else has the name of the intermediate
    value. -/
def redrawingStart : State := ⟨[("z", .int 0), ("x", .int 3)], by decide⟩

/-- A drawing that counts. -/
def counting : Drawing Nat := fun _ _ k => (.ok (.int k), k + 1)

theorem redrawing_performs : ∃ c, redrawing.compile.result = .ok c ∧
    (∀ n ∈ redrawing.sampledNames, redrawingStart.has n.text = true) ∧
    ([] : List Value).length = redrawing.data.length ∧
    ∃ p t, redrawing.Performs counting redrawingStart [] redrawing.statements (.start 5) p ∧
      (c.run counting redrawingStart []).outcome 5 = (.ok t, p.left) ∧
      p.requests = [⟨.normal, [("mu", .int 3), ("sigma", .int 1)]⟩,
        ⟨.normal, [("mu", .int 5), ("sigma", .int 1)]⟩] ∧
      t.entries = [("z", .int 0), ("x", .int 6)] := by
  obtain ⟨c, hc, hrun⟩ : ∃ c, redrawing.compile.result = .ok c ∧
      (c.run counting.noted redrawingStart []).outcome (5, [])
        = (.ok ⟨[("z", .int 0), ("x", .int 6)], by decide⟩, 7,
            [⟨.normal, [("mu", .int 3), ("sigma", .int 1)]⟩,
              ⟨.normal, [("mu", .int 5), ("sigma", .int 1)]⟩]) := ⟨_, rfl, rfl⟩
  have hs : ∀ n ∈ redrawing.sampledNames, redrawingStart.has n.text = true := by decide
  have hd : ([] : List Value).length = redrawing.data.length := rfl
  refine ⟨c, hc, hs, hd, ?_⟩
  rcases sweep_performs hc hs hd counting 5 with
    ⟨p, t, hp, hn, hr, -⟩ | ⟨_, _, _, _, _, _, _, _, _, _, hn, -⟩
  · rw [hrun, Prod.mk.injEq, Prod.mk.injEq, Except.ok.injEq] at hn
    obtain ⟨rfl, -, hq⟩ := hn
    exact ⟨p, _, hp, hr, hq.symm, rfl⟩
  · rw [hrun] at hn; cases hn

end Gibbs
