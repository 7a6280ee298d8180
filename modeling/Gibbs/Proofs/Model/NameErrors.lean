/-
  Errors about names, and the texts that they show.

  The error about a variable outside of a model shows the expression, and the one about an
  undefined name shows its statement.  The text is written before the error is raised.  So an
  operation without a symbol, anywhere in what is shown, puts an error of another kind in its
  place.

  * `Expr.openKind`, `Expr.constantValue_open`: an expression with variables has no value;
  * `Distribution.constantValues_open`: the first parameter without a value;
  * `Model.DanglesFirst`, `Statement.danglingKind`, `Model.compile_of_dangling_kind`: the first
    statement with an undefined name;
  * `name_error_kinds`: the kinds of all of these errors, with `earlyReading` as an example;
  * `unnamed_hides_kinds`: an operation that has no symbol.
-/
import Gibbs.Proofs.Model.Acceptance
import Gibbs.Proofs.Model.Closing

namespace Gibbs

/-! ## Variables outside of a model -/

/-- The kind of the error about the variables of an expression. -/
def Expr.openKind (e : Expr) : ErrorKind :=
  if e.isDisplayable then .fault .badValue else .notImplemented

/-- **An expression with variables has no value**, and the error shows the expression if it has
    a text. -/
theorem Expr.constantValue_open {e : Expr} (h : e.isConstant = false) :
    ∃ err, e.constantValue = .error err ∧ err.kind = e.openKind ∧
      ∀ t, e.text = .ok t → err = .openExpression t (e.names.map Name.text) := by
  simp only [constantValue, refuseOpen, h, Bool.false_eq_true, if_false]
  cases ht : e.text with
  | ok t =>
    have hd : e.isDisplayable = true := (render_ok_iff id).1 ⟨t, ht⟩
    refine ⟨_, rfl, by rw [openKind, if_pos hd]; rfl, fun t' ht' => ?_⟩
    cases ht'; rfl
  | error err =>
    have hd : ¬ e.isDisplayable = true := fun hd => by
      obtain ⟨t, ht'⟩ := (render_ok_iff id).2 hd
      cases ht'.symm.trans ht
    refine ⟨err, rfl, by rw [openKind, if_neg hd]; exact kind_of_render ht, fun t ht' => ?_⟩
    cases ht'

namespace Distribution

variable {d : Distribution}

/-- **A distribution with variables** fails for the first parameter that has no value. -/
theorem constantValues_open (h : ∃ p ∈ d.parents, p.2.isConstant = false) :
    ∃ before p after err, d.parents = before ++ p :: after ∧
      (∀ q ∈ before, ∃ v, q.2.constantValue = .ok v) ∧ p.2.constantValue = .error err ∧
      d.constantValues = .error err := by
  cases hvalues : d.constantValues with
  | ok values =>
    obtain ⟨p, hp, hopen⟩ := h
    obtain ⟨err, herr, -⟩ := Expr.constantValue_open hopen
    obtain ⟨_, -, hvalue⟩ := exists_mem_of_mapM hvalues hp
    obtain ⟨v, hv, -⟩ := bind_eq_ok.1 hvalue
    cases herr.symm.trans hv
  | error err =>
    obtain ⟨before, p, after, hsplit, hbefore, hp⟩ := mapM_eq_error_split hvalues
    refine ⟨before, p, after, err, hsplit, fun q hq => ?_, ?_, rfl⟩
    · obtain ⟨_, hvalue⟩ := hbefore q hq
      obtain ⟨v, hv, -⟩ := bind_eq_ok.1 hvalue
      exact ⟨v, hv⟩
    · rcases bind_eq_error.1 hp with hp | ⟨v, -, hp⟩
      · exact hp
      · cases hp

theorem sample_of_error {err : Error} (h : d.constantValues = .error err) (r : Stream) :
    d.sample.outcome r = (.error err, r) := by
  rw [outcome_sample, h]

theorem logDensities_of_error {err : Error} (h : d.constantValues = .error err) (x : Value) :
    d.logDensities x = .error err := by
  rw [logDensities, h]; rfl

end Distribution

/-! ## Undefined names in a model -/

instance (st : Statement) : Decidable st.IsDisplayable :=
  inferInstanceAs (Decidable (∀ e ∈ st.expressions, e.isDisplayable = true))

/-- The kind of the error about an undefined name of a statement. -/
def Statement.danglingKind (st : Statement) : ErrorKind :=
  if st.IsDisplayable then .undefinedVariable else .notImplemented

/-- The first statement of a model with a reference to a name that nothing defines at that
    point. -/
structure Model.DanglesFirst (m : Model) (done : List Statement) (st : Statement) (n : Name) :
    Prop where
  split : ∃ rest, m.statements = done ++ st :: rest
  refers : st.Refers n
  undrawn : ¬ m.Samples n
  noData : n ∉ m.data
  unassigned : ∀ t ∈ done, t.assigned? ≠ some n
  earlier : ∀ before t after, done = before ++ t :: after → ∀ k, t.Refers k →
    m.Samples k ∨ k ∈ m.data ∨ ∃ u ∈ before, u.assigned? = some k

namespace Model

variable {m : Model}

/-- **A model with an undefined name** is refused for the first statement that has one. -/
theorem compile_of_dangling_kind (hd : ¬ m.Misdeclared) (h : m.Dangling) :
    ∃ done st n err, m.DanglesFirst done st n ∧ m.compile.result = .error err ∧
      err.kind = st.danglingKind ∧ ∀ t, st.text = .ok t → err = .undefinedName t n.text := by
  have hnames : m.checkNames = .ok () := checkNames_eq_ok.2 hd
  cases hrefs : checkReferences (m.sampledNames ++ m.data) m.statements with
  | ok u => exact absurd h (checkReferences_eq_ok_iff.1 hrefs)
  | error err =>
    obtain ⟨done, st, rest, n, hsplit, hdone, hn, hundefined, hassigned, htext⟩ :=
      checkReferences_eq_error hrefs
    rw [List.mem_append, not_or] at hundefined
    have hfirst : m.DanglesFirst done st n := {
      split := ⟨rest, hsplit⟩
      refers := Statement.mem_names_iff.1 hn
      undrawn := fun hs => hundefined.1 (mem_sampledNames.2 hs)
      noData := hundefined.2
      unassigned := hassigned
      earlier := fun before t after hsplit k hk => by
        rcases checkReferences_eq_ok.1 hdone before t after hsplit k
          (Statement.mem_names_iff.2 hk) with hk | hk
        · exact (List.mem_append.1 hk).imp mem_sampledNames.1 .inl
        · exact .inr (.inr hk) }
    have hcompile : m.compile.result = .error err :=
      compile_of_check_error (by rw [check, hnames]; exact hrefs)
    refine ⟨done, st, n, err, hfirst, hcompile, ?_, fun t ht => ?_⟩
    · rcases bind_eq_error.1 htext with ht | ⟨t, ht, he⟩
      · have hdisplay : ¬ st.IsDisplayable := fun hst => by
          obtain ⟨t, ht'⟩ := Statement.text_ok hst
          cases ht'.symm.trans ht
        rw [Statement.danglingKind, if_neg hdisplay]
        exact Statement.kind_of_text ht
      · rw [Statement.danglingKind, if_pos (Statement.text_ok_iff.1 ⟨t, ht⟩)]
        cases he; rfl
    · rw [ht] at htext
      cases htext; rfl

end Model

/-- **The kinds of errors about names.**  The value of an expression with variables, outside of a
    model, is always refused, with a value error if the expression can be displayed.  A draw from
    a distribution with variables and its densities always fail, and no randomness is used up:
    the error is that of the first parameter without a value, which is refused for its variables
    or, if it has none, fails by itself.  A model that is declared properly and has an undefined
    name is always refused, for the first statement that has one, with the error about an
    undefined variable if the statement can be displayed.  What cannot be displayed is refused as
    not implemented. -/
theorem name_error_kinds (e : Expr) (d : Distribution) (m : Model) :
    (e.isConstant = false → ∃ err, e.constantValue = .error err ∧ err.kind = e.openKind ∧
      ∀ t, e.text = .ok t → err = .openExpression t (e.names.map Name.text)) ∧
    ((∃ p ∈ d.parents, p.2.isConstant = false) →
      ∃ before p after err, d.parents = before ++ p :: after ∧
        (∀ q ∈ before, ∃ v, q.2.constantValue = .ok v) ∧ p.2.constantValue = .error err ∧
        (p.2.isConstant = false → err.kind = p.2.openKind) ∧
        (∀ r, d.sample.outcome r = (.error err, r)) ∧ ∀ x, d.logDensities x = .error err) ∧
    (¬ m.Misdeclared → m.Dangling →
      ∃ done st n err, m.DanglesFirst done st n ∧ m.compile.result = .error err ∧
        err.kind = st.danglingKind ∧ ∀ t, st.text = .ok t → err = .undefinedName t n.text) := by
  refine ⟨Expr.constantValue_open, fun h => ?_, Model.compile_of_dangling_kind⟩
  obtain ⟨before, p, after, err, hsplit, hbefore, hp, hvalues⟩ := Distribution.constantValues_open h
  refine ⟨before, p, after, err, hsplit, hbefore, hp, fun hopen => ?_,
    Distribution.sample_of_error hvalues, Distribution.logDensities_of_error hvalues⟩
  obtain ⟨err', herr', hkind, -⟩ := Expr.constantValue_open hopen
  cases hp.symm.trans herr'
  exact hkind

/-- A variable has no value outside of a model, a distribution around it has no draws, and the
    model that reads it too early is refused for it. -/
theorem earlyReading_kinds :
    let z : Name := ⟨"z", isIdentifier_z⟩
    (∃ err, (Expr.var z).constantValue = .error err ∧ err.kind = .fault .badValue) ∧
    (∃ err, (∀ r, (unitNormal (.var z)).sample.outcome r = (.error err, r)) ∧
      err.kind = .fault .badValue) ∧
    ¬ earlyReading.Misdeclared ∧ earlyReading.Dangling ∧
    ∃ err, earlyReading.compile.result = .error err ∧ err.kind = .undefinedVariable := by
  intro z
  obtain ⟨hvalue, hdistribution, hmodel⟩ :=
    name_error_kinds (.var z) (unitNormal (.var z)) earlyReading
  have hdeclared : ¬ earlyReading.Misdeclared := Model.checkNames_eq_ok.1 rfl
  have hdangling : earlyReading.Dangling := by
    by_contra h
    cases Model.checkReferences_eq_ok_iff.2 h
  obtain ⟨err, herr, hkind, -⟩ := hvalue rfl
  refine ⟨⟨err, herr, hkind⟩, ?_, hdeclared, hdangling, ?_⟩
  · obtain ⟨before, p, after, err', hsplit, hbefore, hp, -, hsample, -⟩ :=
      hdistribution ⟨("mu", .var z), List.mem_cons_self, rfl⟩
    refine ⟨err', hsample, ?_⟩
    have hfirst := hsample (.tape (.ofLists [] []))
    cases hfirst
    rfl
  · obtain ⟨done, st, n, err', hfirst, hcompile, hkind', -⟩ := hmodel hdeclared hdangling
    obtain ⟨rest, hsplit⟩ := hfirst.split
    have hst : st ∈ earlyReading.statements := hsplit ▸ List.mem_append_right _ List.mem_cons_self
    have hall : ∀ st ∈ earlyReading.statements, st.danglingKind = .undefinedVariable := by decide
    exact ⟨err', hcompile, hkind'.trans (hall st hst)⟩

/-! ## An operation without a symbol -/

/-- An operation that gives back its operand and has no symbol. -/
def unnamed : UnaryOp := .custom ⟨"NamelessUnary", "", .ok⟩

/-- A model that draws a variable around such an operation on an undefined name. -/
def unnamedReading : Model :=
  let x : Name := ⟨"x", isIdentifier_x⟩
  ⟨x, [], [.sample x (unitNormal (.unary unnamed (.var ⟨"z", isIdentifier_z⟩)))]⟩

/-- **The operation without a symbol** can be computed, but it hides the errors about the variable
    and about the undefined name below it, and so does a parameter that fails before the one with
    the variable is looked at. -/
theorem unnamed_hides_kinds :
    let e : Expr := .unary unnamed (.var ⟨"z", isIdentifier_z⟩)
    let failing : Expr := .binary (.arith .div) (.literal (.int 1)) (.literal (.int 0))
    e.isConstant = false ∧ e.constantValue = .error .symbolMissing ∧
    (∀ r, (unitNormal e).sample.outcome r = (.error .symbolMissing, r)) ∧
    (∀ x, (unitNormal e).logDensities x = .error .symbolMissing) ∧
    (∀ r, (Distribution.mk .normal [("mu", failing), ("sigma", e)]).sample.outcome r
      = (.error (.fault .divisionByZero), r)) ∧
    ¬ unnamedReading.Misdeclared ∧ unnamedReading.Dangling ∧
    unnamedReading.compile.result = .error .symbolMissing ∧
    Error.symbolMissing.kind = .notImplemented := by
  refine ⟨rfl, rfl, fun r => rfl, fun x => rfl, fun r => rfl, Model.checkNames_eq_ok.1 rfl, ?_, rfl,
    rfl⟩
  by_contra h
  cases Model.checkReferences_eq_ok_iff.2 h

end Gibbs
