/-
  Statements whose variables are closed.

  The value that a name has in a frame can be put into an expression as a literal.  An
  expression that is closed in this way has, outside of any model, the value of the compiled
  expression in the frame, or fails with the same error.  So does a distribution: drawing from
  it is what the statement does.

  * `Expr.valueByLevels`, `valueByLevels_eq`: the value of a constant as a recursion that looks
    for variables at every level;
  * `Model.Closes`: literals for the values of names in a frame;
  * `constantValue_replace`, `constantValues_replace`: closed expressions and distributions;
  * `run_sample_closed`: a draw from a closed distribution;
  * `closed_evaluation`: all of this for compiled expressions and for the sweeps of a step.
-/
import Gibbs.Proofs.Distribution.Draw
import Gibbs.Proofs.Expr.Replace
import Gibbs.Proofs.Model.Inlining
import Gibbs.Proofs.Model.Interpreter

namespace Gibbs

/-! ## Constants -/

namespace Expr

/-- An expression without abstract nodes. -/
def isConcrete : Expr → Bool
  | var _ | literal _ => true
  | bare => false
  | unary _ e => e.isConcrete
  | binary _ l r => l.isConcrete && r.isConcrete

/-- The value of an expression without variables, which are looked for again at every node. -/
def valueByLevels : Expr → Except Error Value
  | var n => do
    (var n).refuseOpen
    throw (.fault .noAttribute)
  | literal v => do
    (literal v).refuseOpen
    return v
  | bare => do
    bare.refuseOpen
    throw (.fault .noAttribute)
  | unary op e => do
    (unary op e).refuseOpen
    let v ← e.valueByLevels
    orError (op.run v)
  | binary op l r => do
    (binary op l r).refuseOpen
    let v ← l.valueByLevels
    let w ← r.valueByLevels
    orError (op.run v w)

theorem refuseOpen_of_isConstant {e : Expr} (h : e.isConstant = true) : e.refuseOpen = .ok () :=
  if_pos h

theorem refuseOpen_of_open {e : Expr} (h : e.isConstant = false) :
    ∃ err, e.refuseOpen = .error err := by
  rw [refuseOpen, h]
  cases e.text with
  | error err => exact ⟨err, rfl⟩
  | ok t => exact ⟨_, rfl⟩

/-- **A constant** has the value that it has under any look-up. -/
theorem constantValue_of_isConstant {e : Expr} (h : e.isConstant = true)
    (lookup : Name → Except Error Value) : e.constantValue = e.eval lookup := by
  rw [constantValue, refuseOpen_of_isConstant h]
  exact eval_congr_of_isConstant h _ lookup

theorem isConstant_binary {op : BinaryOp} {l r : Expr} :
    (binary op l r).isConstant = true ↔ l.isConstant = true ∧ r.isConstant = true := by
  simp [isConstant, occurrences]

theorem valueByLevels_of_isConstant {e : Expr} (h : e.isConstant = true)
    (lookup : Name → Except Error Value) : e.valueByLevels = e.eval lookup := by
  induction e with
  | var n => cases h
  | literal v => rfl
  | bare => rfl
  | unary op e ih =>
    have he : e.isConstant = true := h
    rw [valueByLevels, refuseOpen_of_isConstant h, ih he, eval]; rfl
  | binary op l r ihl ihr =>
    obtain ⟨hl, hr⟩ := isConstant_binary.1 h
    rw [valueByLevels, refuseOpen_of_isConstant h, ihl hl, ihr hr, eval]; rfl

/-- **Looking for variables again** finds no more of them. -/
theorem valueByLevels_eq (e : Expr) : e.valueByLevels = e.constantValue := by
  cases hc : e.isConstant with
  | true =>
    rw [constantValue, refuseOpen_of_isConstant hc]
    exact valueByLevels_of_isConstant hc _
  | false =>
    -- the first node is refused
    obtain ⟨err, herr⟩ := refuseOpen_of_open hc
    rw [constantValue, herr]
    cases e <;> (rw [valueByLevels, herr]; rfl)

/-- Expressions without abstract nodes have code where their names have places. -/
theorem exists_compile {place? : Name → Option Place} {e : Expr} (he : e.isConcrete = true)
    (h : ∀ n ∈ e.names, ∃ p, place? n = some p) : ∃ c, e.compile place? = .ok c := by
  simp only [names, List.mem_eraseDups] at h
  induction e with
  | var n =>
    obtain ⟨p, hp⟩ := h n List.mem_cons_self
    exact ⟨.read p, by rw [compile, hp]⟩
  | literal v => exact ⟨.literal v, rfl⟩
  | bare => cases he
  | unary op e ih =>
    obtain ⟨c, hc⟩ := ih he h
    exact ⟨.unary op c, by rw [compile, hc]; rfl⟩
  | binary op l r ihl ihr =>
    obtain ⟨hl, hr⟩ := Bool.and_eq_true_iff.1 he
    simp only [occurrences, List.mem_append] at h
    obtain ⟨c, hc⟩ := ihl hl fun n hn => h n (.inl hn)
    obtain ⟨d, hd⟩ := ihr hr fun n hn => h n (.inr hn)
    exact ⟨.binary op c d, by rw [compile, hc, hd]; rfl⟩

/-- Numbers and arrays are put into expressions as they are. -/
theorem ofValue_of_isNumeric {v : Value} (h : v.isNumeric = true) : ofValue v = .ok (.literal v) := by
  unfold Value.isNumeric at h
  unfold ofValue
  split at h <;> first | rfl | cases h

end Expr

/-! ## Closed expressions -/

/-- Literals for names that stand for numbers and arrays in a frame. -/
def Model.Closes (m : Model) (f : Frame) (names : List Name) (g : Name → Expr) : Prop :=
  ∀ n ∈ names, ∃ p v, m.place? n = some p ∧ f.read p = .ok v ∧ v.isNumeric = true ∧
    Expr.ofValue v = .ok (g n)

namespace Model.Closes

variable {m : Model} {f : Frame} {g : Name → Expr} {names : List Name}

theorem literal (h : m.Closes f names g) {n : Name} (hn : n ∈ names) :
    ∃ v, g n = .literal v ∧ m.valueOf f n = .ok v := by
  obtain ⟨p, v, hp, hv, hnumeric, hg⟩ := h n hn
  refine ⟨v, ?_, by rw [← read_place hp f, hv]⟩
  exact (Except.ok.inj ((Expr.ofValue_of_isNumeric hnumeric).symm.trans hg)).symm

theorem mono (h : m.Closes f names g) {fewer : List Name} (hsub : ∀ n ∈ fewer, n ∈ names) :
    m.Closes f fewer g := fun n hn => h n (hsub n hn)

theorem isConstant_replace {e : Expr} (h : m.Closes f e.names g) :
    (e.replace g).isConstant = true := by
  rw [Expr.isConstant, Expr.occurrences_replace, List.isEmpty_iff, List.flatMap_eq_nil_iff]
  intro n hn
  obtain ⟨v, hv, -⟩ := h.literal (List.mem_eraseDups.2 hn)
  rw [hv]; rfl

/-- **A closed expression** has the value that its names give it in the frame. -/
theorem constantValue_replace {e : Expr} (h : m.Closes f e.names g) :
    (e.replace g).constantValue = e.eval (m.valueOf f) := by
  rw [Expr.constantValue_of_isConstant h.isConstant_replace (m.valueOf f), Expr.eval_replace]
  refine Expr.eval_congr fun n hn => ?_
  obtain ⟨v, hg, hv⟩ := h.literal hn
  rw [hg, hv]; rfl

/-! ## Closed distributions -/

theorem constantValues_replace {d : Distribution} (h : m.Closes f d.names g) :
    (d.replace g).constantValues = d.eval (m.valueOf f) := by
  rw [Distribution.constantValues, Distribution.replace, List.mapM_map]
  refine mapM_congr_left fun p hp => ?_
  have he : m.Closes f p.2.names g := h.mono fun n hn => Distribution.mem_names.2 ⟨p, hp, hn⟩
  simp only [Function.comp_apply, he.constantValue_replace]

end Model.Closes

theorem outcome_sample (d : Distribution) (r : Stream) :
    d.sample.outcome r = match d.constantValues with
      | .error e => (.error e, r)
      | .ok values => (d.family.draw values).outcome r := by
  rw [Distribution.sample]
  cases d.constantValues <;> rfl

/-- **A draw from a closed distribution** is the draw of the statement. -/
theorem run_sample_closed {m : Model} {f : Frame} {g : Name → Expr} {d d' : Distribution}
    (hd : d.IsBuilt) (h : m.Closes f d.names g) (hd' : d.rebuilt g = .ok d') (n : Name)
    (r : Stream) :
    ((Statement.sample n d).run m Family.draw f).outcome r
      = ((d'.sample.outcome r).1.map (f.setState n), (d'.sample.outcome r).2) := by
  obtain rfl := Distribution.rebuilt_eq hd hd'
  rw [outcome_run_sample, outcome_sample, h.constantValues_replace]
  cases d.eval (m.valueOf f) with
  | error e => rfl
  | ok values =>
    simp only [Distribution.replace]
    rcases (d.family.draw values).outcome r with ⟨_ | _, _⟩ <;> rfl

/-! ## Compiled statements -/

/-- **The code of an expression** has the value of the closed expression. -/
theorem eval_compile_closed {m : Model} {f : Frame} {g : Name → Expr} {e : Expr}
    (he : e.isConcrete = true) (h : m.Closes f e.names g) :
    ∃ c, e.compile m.place? = .ok c ∧ c.eval f = (e.replace g).constantValue := by
  obtain ⟨c, hc⟩ := Expr.exists_compile he fun n hn => by
    obtain ⟨p, _, hp, -⟩ := h n hn
    exact ⟨p, hp⟩
  exact ⟨c, hc, (Expr.eval_compile f hc).trans h.constantValue_replace.symm⟩

theorem eval_compile_constant {m : Model} (f : Frame) {e : Expr} (he : e.isConcrete = true)
    (h : e.isConstant = true) :
    ∃ c, e.compile m.place? = .ok c ∧ c.eval f = e.constantValue := by
  have hplaces : ∀ n ∈ e.names, ∃ p, m.place? n = some p := by
    intro n hn
    rw [Expr.names, List.isEmpty_iff.1 h] at hn
    cases hn
  obtain ⟨c, hc⟩ := Expr.exists_compile he hplaces
  exact ⟨c, hc, (Expr.eval_compile f hc).trans (Expr.constantValue_of_isConstant h _).symm⟩

/-- The names of a statement that a sweep reaches have values. -/
theorem exists_read_of_reached {m : Model} {c : CompiledStep} (hc : m.compile.result = .ok c)
    {s : State} (hs : ∀ n ∈ m.sampledNames, s.has n.text = true) {data : List Value}
    (hd : data.length = m.data.length) {before after : List Statement} {st : Statement}
    (hsplit : m.statements = before ++ st :: after) {σ : Type} {draw : Drawing σ} {r q : σ}
    {f : Frame} (hrun : (Statement.runAll m draw ⟨s, [], data⟩ before).outcome r = (.ok f, q))
    {x : Name} (hx : x ∈ st.names) : ∃ p v, m.place? x = some p ∧ f.read p = .ok v := by
  have hsampled : ∀ st ∈ m.statements, ∀ n, st.sampled? = some n → n ∈ m.sampledNames :=
    fun st hst n hn => mem_sampledNames.2 ⟨st, hst, hn⟩
  have hdefines := defines_of_runAll before (.start hs hd) (fun st' hmem => hsampled st' (by
    rw [hsplit]; exact List.mem_append_left _ hmem)) hrun
  have hrefs := (Model.accepted hc).references
  rw [hsplit] at hrefs
  have hdefined := undefinedName?_eq_none.1 (Model.undefinedName?_of_checked before hrefs) x hx
  obtain ⟨-, -, hdangling⟩ := Model.compile_ok_iff.1 ⟨c, hc⟩
  obtain ⟨p, hp⟩ := Option.isSome_iff_exists.1 (Model.place?_of_refers hdangling
    (by rw [hsplit]; simp) (Statement.mem_names_iff.1 hx))
  obtain ⟨v, hv⟩ := hdefines.read hdefined hp
  exact ⟨p, v, hp, hv⟩

/-- **Compiled evaluation is evaluation after closing.**  The code of an expression has, in a
    frame that gives its names numbers and arrays, the value of the expression closed with
    their literals, or fails with the same error; the code of a constant has one value in all
    frames of all models.  The names of a drawing statement that a sweep reaches have values,
    and if the distribution built anew with their literals passes its checks, a draw from it is
    what the sweep stores, with the same randomness left, or fails with the same error. -/
theorem closed_evaluation (m : Model) :
    (∀ e : Expr, e.valueByLevels = e.constantValue) ∧
    (∀ (e : Expr) f g, e.isConcrete = true → m.Closes f e.names g →
      ∃ c, e.compile m.place? = .ok c ∧ c.eval f = (e.replace g).constantValue) ∧
    (∀ (e : Expr) f, e.isConcrete = true → e.isConstant = true →
      ∃ c, e.compile m.place? = .ok c ∧ c.eval f = e.constantValue) ∧
    ∀ c s data r, m.compile.result = .ok c →
      (∀ n ∈ m.sampledNames, s.has n.text = true) → data.length = m.data.length →
      ∀ before n d after, m.statements = before ++ .sample n d :: after → d.IsBuilt →
        ∃ i, c.instructions[before.length]? = some i ∧
          ∀ f q, (Instruction.runAll Family.draw ⟨s, [], data⟩
              (c.instructions.take before.length)).outcome r = (.ok f, q) →
            (∀ x ∈ d.names, ∃ p v, m.place? x = some p ∧ f.read p = .ok v) ∧
            ∀ g d', m.Closes f d.names g → d.rebuilt g = .ok d' →
              (i.run Family.draw f).outcome q
                = ((d'.sample.outcome q).1.map (f.setState n), (d'.sample.outcome q).2) := by
  refine ⟨Expr.valueByLevels_eq, fun e f g he h => eval_compile_closed he h,
    fun e f he h => eval_compile_constant f he h, ?_⟩
  intro c s data r hc hs hd before n d after hsplit hbuilt
  have hinstructions := (Model.accepted hc).instructions
  rw [hsplit] at hinstructions
  obtain ⟨done, i, rest, hlist, hdone, hi⟩ := mapM_append_cons_eq_ok hinstructions
  have hlength : done.length = before.length := length_of_mapM hdone
  refine ⟨i, by rw [hlist, ← hlength]; simp, fun f q hrun => ?_⟩
  rw [hlist, ← hlength, List.take_left, runAll_instructions Family.draw hdone] at hrun
  refine ⟨fun x hx => exists_read_of_reached hc hs hd hsplit hrun hx, fun g d' h hd' => ?_⟩
  rw [run_instruction hi]
  exact run_sample_closed hbuilt h hd' n q

/-! ## A closed shift -/

/-- In a sweep of the shifting model, `y` is drawn as from the normal distribution around the
    value of `x` and one more. -/
theorem shifting_closed :
    let z : Name := ⟨"z", isIdentifier_z⟩
    let four : Name → Expr := fun _ => .literal (.int 4)
    let tape : Stream := .tape (.ofLists [0.5] [])
    ∃ c i f d' v q, shifting.compile.result = .ok c ∧ c.instructions[1]? = some i ∧
      shifting.Closes f (unitNormal (.var z)).names four ∧
      (unitNormal (.var z)).rebuilt four = .ok d' ∧ d'.sample.outcome tape = (.ok v, q) ∧
      (i.run Family.draw f).outcome tape = (.ok (f.setState ⟨"y", isIdentifier_y⟩ v), q) := by
  intro z four tape
  obtain ⟨c, hc⟩ : ∃ c, shifting.compile.result = .ok c := ⟨_, rfl⟩
  have hbuilt : (unitNormal (.var z)).IsBuilt := ⟨_, ofOperands_unitNormal _⟩
  obtain ⟨i, hi, hreached⟩ := (closed_evaluation shifting).2.2.2 c shiftingStart [] tape hc
    (by decide) rfl [.assign z shift] ⟨"y", isIdentifier_y⟩ (unitNormal (.var z)) _ rfl hbuilt
  have hrebuilt : (unitNormal (.var z)).rebuilt four = .ok (unitNormal (.literal (.int 4))) :=
    ofOperands_unitNormal _
  obtain ⟨f, hf, hlocal⟩ : ∃ f, (Instruction.runAll Family.draw ⟨shiftingStart, [], []⟩
      (c.instructions.take 1)).outcome tape = (.ok f, tape) ∧ f.locals = [(z, .int 4)] := by
    cases hc
    exact ⟨_, rfl, rfl⟩
  have hcloses : shifting.Closes f (unitNormal (.var z)).names four := by
    have hnames : (unitNormal (.var z)).names = [z] := by decide
    rw [hnames]
    intro n hn
    obtain rfl := List.mem_singleton.1 hn
    have hread : f.read (.intermediate z) = .ok (.int 4) := by
      rw [Frame.read, hlocal, List.lookup_cons_self]
    exact ⟨.intermediate z, .int 4, rfl, hread, rfl, rfl⟩
  have hdrawn : ((unitNormal (.literal (.int 4))).sample.outcome tape).1.isOk = true := by
    decide +kernel
  obtain ⟨v, q, hv⟩ : ∃ v q, (unitNormal (.literal (.int 4))).sample.outcome tape
      = (.ok v, q) := by
    rcases h : (unitNormal (.literal (.int 4))).sample.outcome tape with ⟨_ | v, q⟩
    · rw [h] at hdrawn; cases hdrawn
    · exact ⟨v, q, rfl⟩
  refine ⟨c, i, f, _, v, q, hc, hi, hcloses, hrebuilt, hv, ?_⟩
  rw [(hreached f tape hf).2 four _ hcloses hrebuilt, hv]; rfl

end Gibbs
