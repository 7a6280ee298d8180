/-
  Acceptance: which models have a compiled step.

  A model is refused for its declarations if it has no statements, draws nothing, names a data
  argument twice, or gives a name two roles.  A model that is declared properly is refused for
  a reference if some statement uses a name that is neither drawn anywhere, nor a data
  argument, nor assigned by an earlier statement.  Every other model has a step.

  * `Model.Misdeclared`, `Model.Dangling`: the two reasons, said without the checks;
  * `checkNames_eq_ok`, `checkReferences_eq_ok_iff`: the checks find exactly these reasons;
  * `compile_ok_iff`: a model has a step if and only if neither applies and it can be displayed,
    as expressions of the operations that the library comes with can;
  * `compile_decides`: the outcome of compiling, with the scopes of an accepted model.
-/
import Gibbs.Proofs.List
import Gibbs.Proofs.Model.Dataflow
import Gibbs.Proofs.Model.Displayable
import Mathlib.Tactic.ByContra

namespace Gibbs

/-! ## Expressions of the operations that the library comes with -/

/-- Whether an operation on one expression comes with the library. -/
def UnaryOp.isStandard : UnaryOp → Bool
  | custom _ => false
  | _ => true

/-- Whether an operation on two expressions comes with the library. -/
def BinaryOp.isStandard : BinaryOp → Bool
  | custom _ => false
  | _ => true

namespace Expr

/-- Whether an expression is made of variables, literals and operations that come with the
    library. -/
def isStandard : Expr → Bool
  | var _ => true
  | literal _ => true
  | bare => false
  | unary op e => op.isStandard && e.isStandard
  | binary op l r => op.isStandard && l.isStandard && r.isStandard

end Expr

/-- A model whose expressions are made of variables, literals and operations that come with
    the library. -/
def Model.IsStandard (m : Model) : Prop :=
  ∀ st ∈ m.statements, ∀ e ∈ st.expressions, e.isStandard = true

theorem UnaryOp.isDisplayable_of_isStandard {op : UnaryOp} (h : op.isStandard = true) :
    op.isDisplayable = true := by
  cases op with
  | custom c => cases h
  | _ => rfl

theorem BinaryOp.isDisplayable_of_isStandard {op : BinaryOp} (h : op.isStandard = true) :
    op.isDisplayable = true := by
  cases op with
  | custom c => cases h
  | _ => rfl

/-- **Standard expressions have a text.** -/
theorem Expr.isDisplayable_of_isStandard {e : Expr} (h : e.isStandard = true) :
    e.isDisplayable = true := by
  induction e with
  | var n => rfl
  | literal v => rfl
  | bare => cases h
  | unary op e ih =>
    rw [isStandard, Bool.and_eq_true] at h
    rw [isDisplayable, UnaryOp.isDisplayable_of_isStandard h.1, ih h.2]; rfl
  | binary op l r ihl ihr =>
    rw [isStandard, Bool.and_eq_true, Bool.and_eq_true] at h
    rw [isDisplayable, BinaryOp.isDisplayable_of_isStandard h.1.1, ihl h.1.2, ihr h.2]; rfl

theorem Model.IsStandard.isDisplayable {m : Model} (h : m.IsStandard) : m.IsDisplayable :=
  fun st hst e he => Expr.isDisplayable_of_isStandard (h st hst e he)

/-! ## References -/

/-- A statement refers to a name if a variable of that name stands in one of its
    expressions. -/
def Statement.Refers (st : Statement) (n : Name) : Prop :=
  ∃ e ∈ st.expressions, Expr.var n ∈ e.walk

theorem Expr.mem_occurrences_iff {e : Expr} {n : Name} :
    n ∈ e.occurrences ↔ Expr.var n ∈ e.walk := by
  induction e with
  | var m => simp [occurrences, walk]
  | literal v => simp [occurrences, walk]
  | bare => simp [occurrences, walk]
  | unary op e ih => simp [occurrences, walk, ih]
  | binary op l r ihl ihr => simp [occurrences, walk, ihl, ihr]

/-- **The names of a statement** are the names that it refers to. -/
theorem Statement.mem_names_iff {st : Statement} {n : Name} : n ∈ st.names ↔ st.Refers n := by
  cases st with
  | sample x d =>
    simp only [names, Refers, expressions, Distribution.names, Expr.names, List.mem_eraseDups,
      List.mem_flatMap, List.mem_map, Expr.mem_occurrences_iff]
    constructor
    · rintro ⟨p, hp, hn⟩; exact ⟨p.2, ⟨p, hp, rfl⟩, hn⟩
    · rintro ⟨_, ⟨p, hp, rfl⟩, hn⟩; exact ⟨p, hp, hn⟩
  | assign x e =>
    simp [names, Refers, expressions, Expr.names, List.mem_eraseDups, Expr.mem_occurrences_iff]

/-! ## Reasons for refusing a model -/

namespace Model

/-- Some statement draws the name. -/
def Samples (m : Model) (n : Name) : Prop := ∃ st ∈ m.statements, st.sampled? = some n

/-- Some statement assigns the name. -/
def Assigns (m : Model) (n : Name) : Prop := ∃ st ∈ m.statements, st.assigned? = some n

/-- A model that is not declared properly. -/
inductive Misdeclared (m : Model) : Prop
  /-- there is no statement -/
  | empty (h : m.statements = [])
  /-- nothing is drawn -/
  | undrawn (h : ∀ st ∈ m.statements, st.sampled? = none)
  /-- two data arguments have one name -/
  | repeated (h : ¬ m.data.Nodup)
  /-- a drawn variable has the name of a data argument -/
  | drawnData {n : Name} (hs : m.Samples n) (hd : n ∈ m.data)
  /-- an intermediate value has the name of a drawn variable or of a data argument -/
  | shadowing {n : Name} (ha : m.Assigns n) (h : m.Samples n ∨ n ∈ m.data)

/-- A model with a reference to a name that nothing defines at that point. -/
def Dangling (m : Model) : Prop :=
  ∃ done st rest n, m.statements = done ++ st :: rest ∧ st.Refers n ∧
    ¬ m.Samples n ∧ n ∉ m.data ∧ ∀ t ∈ done, t.assigned? ≠ some n

/-- The role of a name, by the scope that goes with it. -/
def Lives (m : Model) (n : Name) : Scope → Prop
  | .state => m.Samples n
  | .data => n ∈ m.data
  | .intermediate => m.Assigns n

variable {m : Model}

theorem mem_intermediateNames {n : Name} : n ∈ m.intermediateNames ↔ m.Assigns n := by
  simp [intermediateNames, Assigns, List.mem_eraseDups]

theorem repeatedData_eq_nil : m.repeatedData = [] ↔ m.data.Nodup := by
  rw [repeatedData, List.filter_eq_nil_iff, List.nodup_iff_count]
  constructor
  · intro h n
    by_cases hn : n ∈ m.data
    · simpa using h n hn
    · rw [List.count_eq_zero_of_not_mem hn]; exact Nat.zero_le 1
  · intro h n _
    simpa using h n

theorem sampledData_eq_nil : m.sampledData = [] ↔ ∀ n, m.Samples n → n ∉ m.data := by
  simp [sampledData, List.filter_eq_nil_iff, mem_sampledNames, Samples]

theorem shadowingNames_eq_nil :
    m.shadowingNames = [] ↔ ∀ n, m.Assigns n → ¬ m.Samples n ∧ n ∉ m.data := by
  simp [shadowingNames, List.filter_eq_nil_iff, mem_intermediateNames, mem_sampledNames, Samples]

theorem sampledNames_eq_nil : m.sampledNames = [] ↔ ∀ st ∈ m.statements, st.sampled? = none := by
  rw [List.eq_nil_iff_forall_not_mem]
  constructor
  · intro h st hst
    cases hs : st.sampled? with
    | none => rfl
    | some n => exact absurd (mem_sampledNames.2 ⟨st, hst, hs⟩) (h n)
  · intro h n hn
    obtain ⟨st, hst, hs⟩ := mem_sampledNames.1 hn
    rw [h st hst] at hs; cases hs

end Model

/-! ## The checks -/

/-- The errors of a model that is not declared properly. -/
def Error.isDeclaration : Error → Bool
  | noStatements _ | dataRepeated _ | nothingSampled _ | dataSampled _ | nameShadowed _ => true
  | _ => false

namespace Model
variable {m : Model}

/-- **The check of the declarations** passes exactly if the model is declared properly. -/
theorem checkNames_eq_ok : m.checkNames = .ok () ↔ ¬ m.Misdeclared := by
  unfold checkNames
  split_ifs with h1 h2 h3 h4 h5
  · refine iff_of_false (fun h => by cases h) (not_not_intro (.empty ?_))
    exact List.isEmpty_iff.1 h1
  · refine iff_of_false (fun h => by cases h) (not_not_intro (.repeated fun hd => ?_))
    rw [repeatedData_eq_nil.2 hd] at h2; cases h2
  · refine iff_of_false (fun h => by cases h) (not_not_intro (.undrawn ?_))
    exact sampledNames_eq_nil.1 (List.isEmpty_iff.1 h3)
  · refine iff_of_false (fun h => by cases h) fun h => ?_
    have hn : m.sampledData = [] := sampledData_eq_nil.2 fun n hs hd => h (.drawnData hs hd)
    rw [hn] at h4; cases h4
  · refine iff_of_false (fun h => by cases h) fun h => ?_
    have hn : m.shadowingNames = [] := shadowingNames_eq_nil.2 fun n ha =>
      ⟨fun hs => h (.shadowing ha (.inl hs)), fun hd => h (.shadowing ha (.inr hd))⟩
    rw [hn] at h5; cases h5
  · simp only [Bool.not_eq_true', Bool.not_eq_false, List.isEmpty_iff] at h2 h4 h5
    refine iff_of_true rfl fun hm => ?_
    cases hm with
    | empty h => rw [h] at h1; exact h1 rfl
    | undrawn h => rw [sampledNames_eq_nil.2 h] at h3; exact h3 rfl
    | repeated h => exact h (repeatedData_eq_nil.1 h2)
    | drawnData hs hd => exact sampledData_eq_nil.1 h4 _ hs hd
    | shadowing ha h =>
      obtain ⟨hs, hd⟩ := shadowingNames_eq_nil.1 h5 _ ha
      exact h.elim hs hd

theorem isDeclaration_of_checkNames {e : Error} (h : m.checkNames = .error e) :
    e.isDeclaration = true := by
  unfold checkNames at h
  split_ifs at h <;> cases h <;> rfl

/-- **The check of the references** of a model passes exactly if no reference is left
    dangling. -/
theorem checkReferences_eq_ok_iff :
    checkReferences (m.sampledNames ++ m.data) m.statements = .ok () ↔ ¬ m.Dangling := by
  rw [checkReferences_eq_ok]
  constructor
  · rintro h ⟨done, st, rest, n, hsplit, hn, hs, hd, ha⟩
    rcases h done st rest hsplit n (Statement.mem_names_iff.2 hn) with h | ⟨t, ht, h⟩
    · rcases List.mem_append.1 h with h | h
      · exact hs (mem_sampledNames.1 h)
      · exact hd h
    · exact ha t ht h
  · intro h done st rest hsplit n hn
    by_contra hc
    rw [not_or, List.mem_append, not_or] at hc
    obtain ⟨⟨hs, hd⟩, ha⟩ := hc
    refine h ⟨done, st, rest, n, hsplit, Statement.mem_names_iff.1 hn,
      fun hn => hs (mem_sampledNames.2 hn), hd, fun t ht hn => ha ⟨t, ht, hn⟩⟩

/-- **The check of the references** stops at the first statement with an undefined name, and its
    error shows the statement. -/
theorem checkReferences_eq_error : ∀ {sts : List Statement} {defined : List Name} {e : Error},
    checkReferences defined sts = .error e →
    ∃ done st rest n, sts = done ++ st :: rest ∧ checkReferences defined done = .ok () ∧
      n ∈ st.names ∧ n ∉ defined ∧ (∀ t ∈ done, t.assigned? ≠ some n) ∧
      (st.text >>= fun t => .error (.undefinedName t n.text) : Except Error Unit) = .error e
  | [], _, _, h => by cases h
  | s :: sts, defined, e, h => by
    rw [checkReferences] at h
    cases hu : undefinedName? defined s with
    | some n =>
      rw [hu] at h
      exact ⟨[], s, sts, n, rfl, rfl, List.mem_of_find?_eq_some hu, by simpa using List.find?_some hu,
        by simp, h⟩
    | none =>
      rw [hu] at h
      obtain ⟨done, st, rest, n, rfl, hdone, hn, hdefined, hassigned, he⟩ :=
        checkReferences_eq_error h
      rw [mem_definedAfter, not_or] at hdefined
      exact ⟨s :: done, st, rest, n, rfl, by rw [checkReferences, hu]; exact hdone, hn, hdefined.1,
        List.forall_mem_cons.2 ⟨hdefined.2, hassigned⟩, he⟩

/-- The check of the references of statements that have texts reports an undefined name or
    nothing. -/
theorem undefinedName_of_checkReferences {sts : List Statement} {defined : List Name} {e : Error}
    (ht : ∀ st ∈ sts, ∃ t, st.text = .ok t) (h : checkReferences defined sts = .error e) :
    ∃ t x, e = .undefinedName t x := by
  obtain ⟨done, st, rest, n, rfl, -, -, -, -, he⟩ := checkReferences_eq_error h
  obtain ⟨t, hst⟩ := ht st (List.mem_append_right _ List.mem_cons_self)
  rw [hst] at he
  cases he
  exact ⟨t, n.text, rfl⟩

end Model

/-! ## Places -/

namespace Model
variable {m : Model}

theorem place?_isSome {n : Name} :
    (m.place? n).isSome = true ↔ m.Samples n ∨ n ∈ m.data ∨ m.Assigns n := by
  rw [← mem_intermediateNames, Samples, ← mem_sampledNames]
  unfold place? scope?
  by_cases hs : n ∈ m.sampledNames
  · simp [hs]
  · by_cases hd : n ∈ m.data
    · simp [hs, hd]
    · by_cases ha : n ∈ m.intermediateNames
      · simp [hs, hd, ha]
      · simp [hs, hd, ha]

/-- In a model without dangling references, every reference has a place. -/
theorem place?_of_refers (h : ¬ m.Dangling) {st : Statement} (hst : st ∈ m.statements) {n : Name}
    (hn : st.Refers n) : (m.place? n).isSome = true := by
  obtain ⟨done, rest, hsplit⟩ := List.append_of_mem hst
  by_contra hp
  rw [place?_isSome, not_or, not_or] at hp
  obtain ⟨hs, hd, ha⟩ := hp
  refine h ⟨done, st, rest, n, hsplit, hn, hs, hd, fun t ht hna => ha ⟨t, ?_, hna⟩⟩
  rw [hsplit]
  exact List.mem_append_left _ ht

end Model

/-! ## Scopes -/

namespace Model
variable {m : Model}

/-- **The scopes of a model** are the roles of its names. -/
theorem mem_scopes_iff {n : Name} {sc : Scope} : (n, sc) ∈ m.scopes ↔ m.Lives n sc := by
  cases sc <;> simp [scopes, Lives, mem_sampledNames, mem_intermediateNames, Samples]

/-- A model that is declared properly has one scope for every name. -/
theorem nodup_scopes (h : ¬ m.Misdeclared) : (m.scopes.map Prod.fst).Nodup := by
  have hkeys : m.scopes.map Prod.fst = m.sampledNames ++ m.data ++ m.intermediateNames := by
    simp [scopes, Function.comp_def]
  have hd : m.data.Nodup := by
    by_contra hd
    exact h (.repeated hd)
  rw [hkeys, List.nodup_append, List.nodup_append]
  refine ⟨⟨nodup_eraseDups _, hd, ?_⟩, nodup_eraseDups _, ?_⟩
  · rintro a ha _ hb rfl
    exact h (.drawnData (mem_sampledNames.1 ha) hb)
  · rintro a ha _ hb rfl
    refine h (.shadowing (mem_intermediateNames.1 hb) ?_)
    rcases List.mem_append.1 ha with ha | ha
    · exact .inl (mem_sampledNames.1 ha)
    · exact .inr ha

end Model

/-! ## Compiling -/

namespace Model
variable {m : Model}

theorem compile_of_check_error {e : Error} (h : m.check = .error e) :
    m.compile.result = .error e := by
  simp only [compile, instructions, h]
  rfl

theorem compile_of_misdeclared (h : m.Misdeclared) :
    ∃ e, m.compile.result = .error e ∧ e.isDeclaration = true := by
  cases hn : m.checkNames with
  | ok u => exact absurd h (checkNames_eq_ok.1 hn)
  | error e =>
    refine ⟨e, compile_of_check_error ?_, isDeclaration_of_checkNames hn⟩
    rw [check, hn]; rfl

theorem compile_of_dangling (hm : m.IsDisplayable) (hd : ¬ m.Misdeclared) (h : m.Dangling) :
    ∃ t x, m.compile.result = .error (.undefinedName t x) := by
  have hn : m.checkNames = .ok () := checkNames_eq_ok.2 hd
  cases hr : checkReferences (m.sampledNames ++ m.data) m.statements with
  | ok u => exact absurd h (checkReferences_eq_ok_iff.1 hr)
  | error e =>
    obtain ⟨t, x, rfl⟩ := undefinedName_of_checkReferences
      (fun st hst => Statement.text_ok (hm st hst)) hr
    refine ⟨t, x, compile_of_check_error ?_⟩
    rw [check, hn]; exact hr

theorem compile_of_sound (hm : m.IsDisplayable) (hd : ¬ m.Misdeclared) (h : ¬ m.Dangling) :
    ∃ c, m.compile.result = .ok c := by
  have hcheck : m.check = .ok () := by
    rw [check, checkNames_eq_ok.2 hd]
    exact checkReferences_eq_ok_iff.2 h
  obtain ⟨is, his⟩ := mapM_ok (f := fun st => Statement.compile m.place? st) (l := m.statements)
    fun st hst => Statement.compile_ok (hm st hst) fun n hn =>
      place?_of_refers h hst (Statement.mem_names_iff.1 hn)
  obtain ⟨t, ht⟩ := source_ok_iff.2 hm
  have hi : m.instructions = .ok is := by
    rw [instructions, hcheck]; exact his
  refine ⟨⟨m.name, m.data, m.sampledNames, m.scopes, is, t⟩, ?_⟩
  simp only [compile, hi, stepOf, ht]
  rfl

/-- **The models that have a step:** declared properly, without dangling references, and made
    of expressions that have texts. -/
theorem compile_ok_iff : (∃ c, m.compile.result = .ok c) ↔
    m.IsDisplayable ∧ ¬ m.Misdeclared ∧ ¬ m.Dangling := by
  constructor
  · rintro ⟨c, hc⟩
    have ha := Model.accepted hc
    obtain ⟨⟨⟩, hn, -⟩ := bind_eq_ok.1 ha.check
    refine ⟨?_, checkNames_eq_ok.1 hn, checkReferences_eq_ok_iff.1 ha.references⟩
    unfold compile at hc
    cases hi : m.instructions with
    | error e => rw [hi] at hc; cases hc
    | ok is =>
      rw [hi] at hc
      obtain ⟨t, ht, -⟩ := bind_eq_ok.1 (show m.stepOf is = .ok c from hc)
      exact source_ok_iff.1 ⟨t, ht⟩
  · rintro ⟨hm, hd, hr⟩
    exact compile_of_sound hm hd hr

end Model

/-- **Compiling decides which models are sound.**  A standard model is refused for its
    declarations exactly if it is not declared properly, and for a reference exactly if it is
    declared properly and some reference dangles.  Every other standard model has a step, in
    which exactly the drawn names, the data arguments and the assigned names have a scope,
    each the one of its role. -/
theorem compile_decides {m : Model} (hm : m.IsStandard) :
    ((∃ e, m.compile.result = .error e ∧ e.isDeclaration = true) ↔ m.Misdeclared) ∧
    ((∃ t x, m.compile.result = .error (.undefinedName t x)) ↔ ¬ m.Misdeclared ∧ m.Dangling) ∧
    (¬ m.Misdeclared → ¬ m.Dangling → ∃ c, m.compile.result = .ok c ∧
      (c.scopes.map Prod.fst).Nodup ∧ ∀ n sc, (n, sc) ∈ c.scopes ↔ m.Lives n sc) := by
  by_cases hd : m.Misdeclared
  · obtain ⟨e, he, hdecl⟩ := Model.compile_of_misdeclared hd
    refine ⟨⟨fun _ => hd, fun _ => ⟨e, he, hdecl⟩⟩, ⟨?_, fun h => absurd hd h.1⟩,
      fun h => absurd hd h⟩
    rintro ⟨t, x, h⟩
    rw [he] at h; cases h; cases hdecl
  by_cases hr : m.Dangling
  · obtain ⟨t, x, he⟩ := Model.compile_of_dangling hm.isDisplayable hd hr
    refine ⟨⟨?_, fun h => absurd h hd⟩, ⟨fun _ => ⟨hd, hr⟩, fun _ => ⟨t, x, he⟩⟩,
      fun _ h => absurd hr h⟩
    rintro ⟨e, h, hdecl⟩
    rw [he] at h; cases h; cases hdecl
  · obtain ⟨c, hc⟩ := Model.compile_of_sound hm.isDisplayable hd hr
    refine ⟨⟨?_, fun h => absurd h hd⟩, ⟨?_, fun h => absurd h.2 hr⟩, fun _ _ => ⟨c, hc, ?_⟩⟩
    · rintro ⟨e, h, -⟩
      rw [hc] at h; cases h
    · rintro ⟨t, x, h⟩
      rw [hc] at h; cases h
    · rw [(Model.accepted hc).scopes]
      exact ⟨Model.nodup_scopes hd, fun n sc => Model.mem_scopes_iff⟩

/-! ## A value that is read before it is assigned -/

/-- A model that draws a variable around an intermediate value and assigns the value only
    afterwards. -/
def earlyReading : Model :=
  let x : Name := ⟨"x", isIdentifier_x⟩
  let z : Name := ⟨"z", isIdentifier_z⟩
  ⟨x, [], [.sample x ⟨.normal, [("mu", .var z), ("sigma", .literal (.int 1))]⟩,
    .assign z (.var x)]⟩

/-- The model that reads too early is declared properly and refused for a reference; the one
    that draws its variable twice has a step. -/
theorem earlyReading_refused : earlyReading.IsStandard ∧ redrawing.IsStandard ∧
    ¬ earlyReading.Misdeclared ∧ earlyReading.Dangling ∧
    (∃ t x, earlyReading.compile.result = .error (.undefinedName t x)) ∧
    ∃ c, redrawing.compile.result = .ok c ∧ (c.scopes.map Prod.fst).Nodup := by
  have hs : earlyReading.IsStandard := by unfold Model.IsStandard; decide
  have hs' : redrawing.IsStandard := by unfold Model.IsStandard; decide
  have hd : ¬ earlyReading.Misdeclared := Model.checkNames_eq_ok.1 rfl
  have hr : earlyReading.Dangling := by
    have hz : Expr.var ⟨"z", by decide⟩ ∈ (Expr.var ⟨"z", by decide⟩).walk :=
      List.mem_singleton_self _
    refine ⟨[], _, _, ⟨"z", by decide⟩, rfl, ⟨_, List.mem_cons_self, hz⟩, ?_, ?_, ?_⟩
    · simp [Model.Samples, earlyReading, Statement.sampled?]
    · simp [earlyReading]
    · simp
  obtain ⟨c, hc, hn, -⟩ := (compile_decides hs').2.2 (Model.checkNames_eq_ok.1 rfl)
    (Model.checkReferences_eq_ok_iff.1 rfl)
  exact ⟨hs, hs', hd, hr, (compile_decides hs).2.1.2 ⟨hd, hr⟩, c, hc, hn⟩

end Gibbs
