/-
  Models are read off their sources.

  The source of a sweep says which model it was compiled from: its head has the name and the
  data arguments, and every line between the first and the last one is a statement.  A name in
  front of an equals sign is assigned, an entry of the new state is drawn, and the parameters of
  a distribution are those of the family that is named.

  * `Model.IsReadable`: distributions of the library's families, and readable expressions;
  * `readDistribution`, `readStatement`, `readModel`: reading a source from left to right;
  * `readModel_source`: a readable model is read off its source;
  * `source_determines_model`: two models have different sources, and two expressions different
    texts, also if these differ in where a minus sign stands (`negatedEntry`).
-/
import Gibbs.Proofs.Expr.Reading
import Gibbs.Proofs.Model.Inlining

namespace Gibbs

/-! ## Readable models -/

/-- A distribution that was built from parameters of one of the library's families, each of which
    is readable. -/
structure Distribution.IsReadable (d : Distribution) : Prop where
  family : d.family ∈ Family.all
  isBuilt : d.IsBuilt
  parents : ∀ p ∈ d.parents, p.2.isReadable = true

/-- A statement with a readable right-hand side. -/
def Statement.IsReadable : Statement → Prop
  | sample _ d => d.IsReadable
  | assign _ e => e.isReadable = true

/-- A model with readable statements. -/
def Model.IsReadable (m : Model) : Prop := ∀ st ∈ m.statements, st.IsReadable

/-- A distribution that was built lists its parameters as its family does. -/
theorem Distribution.IsBuilt.map_fst_parents {d : Distribution} (h : d.IsBuilt) :
    d.parents.map Prod.fst = d.family.names := by
  obtain ⟨given, hgiven⟩ := h
  obtain ⟨-, hparents⟩ := parents_of_ofOperands hgiven
  rw [hparents, List.map_map]
  exact List.map_id _

theorem Family.ofName?_name {family : Family} (h : family ∈ Family.all) :
    Family.ofName? family.name = some family := by
  simp only [Family.all, List.mem_cons, List.not_mem_nil, or_false] at h
  rcases h with rfl | rfl | rfl | rfl | rfl | rfl | rfl | rfl | rfl | rfl | rfl | rfl | rfl |
    rfl | rfl | rfl <;> rfl

theorem Family.all_continues_name : ∀ family ∈ Family.all,
    family.name.toList.all Text.continuesIdentifier = true := by
  decide

theorem Model.spells_sourceName (m : Model) : Spells m.sourceName := by
  intro n
  unfold sourceName
  split
  · exact .inr rfl
  · exact .inl rfl

theorem spells_id : Spells id := fun _ => .inl rfl

/-! ## Reading -/

/-- The name in front of a text. -/
def readName (s : List Char) : Option (Name × List Char) :=
  let (w, s) := word s
  (Name.ofText? (String.ofList w)).map (·, s)

section
variable (n : Nat)

/-- What comes after a comma and a space, if they are there. -/
def afterComma : List Char → List Char
  | ',' :: ' ' :: s => s
  | s => s

/-- The parameters of a distribution, given their names. -/
def readArguments : List String → List Char → Option (List (String × Expr) × List Char)
  | [], s => some ([], s)
  | k :: ks, s => do
    let (e, s) ← readExpr n (s.drop (k.toList.length + 1))
    let (ps, s) ← readArguments ks (afterComma s)
    return ((k, e) :: ps, s)

/-- A distribution. -/
def readDistribution (s : List Char) : Option (Distribution × List Char) := do
  let (w, s) := word s
  let family ← Family.ofName? (String.ofList w)
  let (parents, s) ← readArguments n family.names (s.drop 1)
  return (⟨family, parents⟩, s.drop 1)

/-- A statement, without the blanks in front of it. -/
def readStatement (s : List Char) : Option (Statement × List Char) := do
  let (w, s) := word s
  match s with
  | ' ' :: '=' :: ' ' :: s =>
    let x ← Name.ofText? (String.ofList w)
    let (e, s) ← readExpr n s
    return (.assign x e, s)
  | '[' :: '"' :: s =>
    let (x, s) ← readName s
    let (d, s) ← readDistribution n (s.drop "\"] = draw(rng, ".toList.length)
    return (.sample x d, s.drop 1)
  | _ => none

/-- Statements on lines of their own, up to one that is none. -/
def readStatements : Nat → List Char → List Statement
  | 0, _ => []
  | k + 1, s => match readStatement n (s.drop "\n    ".toList.length) with
    | some (st, s) => st :: readStatements k s
    | none => []

end

/-- Data arguments behind commas. -/
def readData : Nat → List Char → List Name × List Char
  | k + 1, ',' :: ' ' :: s => match readName s with
    | some (x, s) => let (xs, s) := readData k s; (x :: xs, s)
    | none => ([], s)
  | _, s => ([], s)

/-- The model of a source. -/
def readModel (s : List Char) : Option Model := do
  let (name, t) ← readName (s.drop "def ".toList.length)
  let (data, t) := readData s.length (t.drop "(rng, state".toList.length)
  let t := t.drop "):\n    new_state = deepcopy(state)".toList.length
  return ⟨name, data, readStatements s.length s.length t⟩

/-! ## What is read -/

theorem readName_append (x : Name) {s : List Char} (hs : EndsWord s) :
    readName (x.text.toList ++ s) = some (x, s) := by
  rw [readName, word_append x.all_continues hs]
  simp only [String.ofList_toList, Name.ofText?_text, Option.map_some]

section
variable {n : Nat} {f : String → String} {u : List Char}

theorem readArguments_cons (hf : Spells f) {k t : String} {e : Expr} (he : e.isReadable = true)
    (ht : e.render f = .ok t) (hn : t.toList.length < n) {w : List Char} (hw : EndsExpr w)
    (ks : List String) :
    readArguments n (k :: ks) ((k ++ "=" ++ t).toList ++ w) = (do
      let (ps, s) ← readArguments n ks (afterComma w)
      return ((k, e) :: ps, s)) := by
  have htext : (k ++ "=" ++ t).toList ++ w = (k.toList ++ ['=']) ++ (t.toList ++ w) := by simp
  have hdrop : ((k.toList ++ ['=']) ++ (t.toList ++ w)).drop (k.toList.length + 1)
      = t.toList ++ w := List.drop_left' (by simp)
  rw [htext, readArguments, hdrop, readExpr_render hf he ht hn hw]
  rfl

theorem readArguments_render (hf : Spells f) : ∀ {ps : List (String × Expr)} {args : List String},
    (∀ p ∈ ps, p.2.isReadable = true) →
    ps.mapM (fun (k, e) => do return k ++ "=" ++ (← e.render f)) = .ok args →
    (", ".intercalate args).toList.length < n →
    readArguments n (ps.map Prod.fst) ((", ".intercalate args).toList ++ ')' :: u)
      = some (ps, ')' :: u)
  | [], args, _, h, _ => by cases h; simp [readArguments]
  | (k, e) :: ps, args, hps, h, hn => by
    obtain ⟨a, as, ha, has, rfl⟩ := mapM_cons_eq_ok.1 h
    obtain ⟨t, ht, ha⟩ := bind_eq_ok.1 ha
    cases ha
    obtain ⟨he, hrest⟩ := List.forall_mem_cons.1 hps
    have hlength : (k ++ "=" ++ t).toList.length = k.toList.length + t.toList.length + 1 := by
      simp; omega
    rw [List.map_cons]
    cases as with
    | nil =>
      have hnil : ps = [] := List.eq_nil_of_length_eq_zero (length_of_mapM has).symm
      subst hnil
      rw [String.intercalate_singleton] at hn ⊢
      rw [readArguments_cons hf he ht (by omega) (.cons (by decide) u)]
      rfl
    | cons b bs =>
      have htext : ∀ v, (", ".intercalate ((k ++ "=" ++ t) :: b :: bs)).toList ++ v
          = (k ++ "=" ++ t).toList ++ ',' :: ' ' :: ((", ".intercalate (b :: bs)).toList ++ v) := by
        intro v
        simp [String.toList_intercalate]
      have hnil := congrArg List.length (htext [])
      simp only [List.append_nil, List.length_append, List.length_cons] at hnil
      rw [htext, readArguments_cons hf he ht (by omega) (.cons (by decide) _)]
      rw [afterComma, readArguments_render hf hrest has (by omega)]
      rfl

theorem readDistribution_render (hf : Spells f) {d : Distribution} (hd : d.IsReadable) {t : String}
    (ht : d.render f = .ok t) (hn : t.toList.length < n) :
    readDistribution n (t.toList ++ u) = some (d, u) := by
  obtain ⟨args, hargs, ht⟩ := bind_eq_ok.1 ht
  cases ht
  rw [length_called] at hn
  have htext : (called d.family.name (", ".intercalate args)).toList ++ u
      = d.family.name.toList ++ '(' :: ((", ".intercalate args).toList ++ ')' :: u) := by
    simp [called]
  have hread := readArguments_render (n := n) (u := u) hf hd.parents hargs (by omega)
  rw [hd.isBuilt.map_fst_parents] at hread
  rw [htext, readDistribution, word_append (Family.all_continues_name _ hd.family)
    (.cons (by decide) _)]
  simp only [String.ofList_toList, Family.ofName?_name hd.family, Option.bind_eq_bind,
    Option.bind_some, List.drop_succ_cons, List.drop_zero, hread]
  rfl

end

section
variable {m : Model} {n : Nat} {u : List Char}

theorem draws_of_mem {x : Name} {d : Distribution} (h : Statement.sample x d ∈ m.statements) :
    m.draws x.text = true := by
  have hmem : x ∈ m.sampledNames := mem_sampledNames.2 ⟨_, h, rfl⟩
  exact List.contains_iff_mem.2 (List.mem_map_of_mem hmem)

theorem readStatement_assign (x : Name) {e : Expr} {s t : List Char}
    (h : readExpr n s = some (e, t)) :
    readStatement n (x.text.toList ++ ' ' :: '=' :: ' ' :: s) = some (.assign x e, t) := by
  rw [readStatement, word_append x.all_continues (.cons (by decide) _)]
  simp only [String.ofList_toList, Name.ofText?_text, Option.bind_eq_bind, Option.bind_some, h]
  rfl

theorem readStatement_sample (x : Name) {d : Distribution} {s t : List Char}
    (h : readDistribution n s = some (d, ')' :: t)) :
    readStatement n ("new_state".toList ++ '[' :: '"' ::
      (x.text.toList ++ ("\"] = draw(rng, ".toList ++ s))) = some (.sample x d, t) := by
  have hname := readName_append x (s := "\"] = draw(rng, ".toList ++ s)
    (.append (c := '"') (by simp) (by decide) s)
  have hdrop : ("\"] = draw(rng, ".toList ++ s).drop "\"] = draw(rng, ".toList.length = s :=
    List.drop_left
  rw [readStatement, word_append (by decide) (.cons (by decide) _)]
  simp only [Option.bind_eq_bind, Option.bind_some, hname, hdrop, h]
  rfl

/-- **A statement** is read off its line. -/
theorem readStatement_line {st : Statement} (hst : st.IsReadable) {line : String}
    (hline : m.sourceLine st = .ok line) (hmem : st ∈ m.statements)
    (hn : line.toList.length < n) :
    ∃ body, line.toList = "    ".toList ++ body ∧
      readStatement n (body ++ '\n' :: u) = some (st, '\n' :: u) := by
  cases st with
  | sample x d =>
    obtain ⟨t, ht, h⟩ := bind_eq_ok.1 hline
    cases h
    have hread := readDistribution_render (n := n) (u := ')' :: '\n' :: u) m.spells_sourceName hst
      ht (by simp at hn; omega)
    refine ⟨"new_state".toList ++ '[' :: '"' :: (x.text.toList ++
      ("\"] = draw(rng, ".toList ++ (t.toList ++ [')']))), ?_, ?_⟩
    · rw [Model.sourceName, if_pos (draws_of_mem hmem)]
      simp [Model.stateEntry]
    · rw [← readStatement_sample x hread]
      congr 1
      simp
  | assign x e =>
    obtain ⟨t, ht, h⟩ := bind_eq_ok.1 hline
    cases h
    have hread := readExpr_render (u := '\n' :: u) m.spells_sourceName hst ht (n := n)
      (by simp at hn; omega) (.cons (by decide) u)
    refine ⟨x.text.toList ++ ' ' :: '=' :: ' ' :: t.toList, by simp, ?_⟩
    rw [← readStatement_assign x hread]
    congr 1
    simp

/-- The lines of statements, each behind a line break, and the last line of a source. -/
def sourceRest (lines : List String) : List Char :=
  lines.flatMap (fun line => '\n' :: line.toList) ++ "\n    return new_state".toList

theorem readStatement_return : readStatement n "return new_state".toList = none := by
  have htext : "return new_state".toList = "return".toList ++ ' ' :: 'n' :: "ew_state".toList := by
    simp
  rw [htext, readStatement, word_append (by decide) (.cons (by decide) _)]
  rfl

theorem exists_sourceRest : ∀ lines : List String, ∃ s, sourceRest lines = '\n' :: s
  | [] => ⟨"    return new_state".toList, by simp [sourceRest]⟩
  | line :: lines => ⟨line.toList ++ sourceRest lines, by simp [sourceRest]⟩

/-- **Statements** are read off their lines. -/
theorem readStatements_lines : ∀ {k : Nat} {sts : List Statement} {lines : List String},
    (∀ st ∈ sts, st.IsReadable) → (∀ st ∈ sts, st ∈ m.statements) →
    sts.mapM m.sourceLine = .ok lines → (sourceRest lines).length < n → sts.length < k →
    readStatements n k (sourceRest lines) = sts
  | 0, _, _, _, _, _, _, hk => by cases hk
  | k + 1, [], lines, _, _, h, _, _ => by
    obtain rfl : [] = lines := Except.ok.inj h
    have hrest : (sourceRest []).drop "\n    ".toList.length = "return new_state".toList := by
      simp [sourceRest]
    rw [readStatements, hrest, readStatement_return]
  | k + 1, st :: sts, lines, hread, hmem, h, hn, hk => by
    obtain ⟨line, lines, hline, hlines, rfl⟩ := mapM_cons_eq_ok.1 h
    obtain ⟨hst, hsts⟩ := List.forall_mem_cons.1 hread
    obtain ⟨hin, hins⟩ := List.forall_mem_cons.1 hmem
    have hcons : sourceRest (line :: lines) = '\n' :: (line.toList ++ sourceRest lines) := by
      simp [sourceRest]
    rw [hcons, List.length_cons, List.length_append] at hn
    have ih := readStatements_lines (k := k) hsts hins hlines (by omega) (by simpa using hk)
    obtain ⟨s, hs⟩ := exists_sourceRest lines
    obtain ⟨body, hbody, hstatement⟩ := readStatement_line (u := s) hst hline hin (by omega : _ < n)
    have hdrop : (sourceRest (line :: lines)).drop "\n    ".toList.length = body ++ '\n' :: s := by
      rw [hcons, hbody, hs]
      simp
    rw [readStatements, hdrop, hstatement, ← hs]
    simp only [ih]

/-- The data arguments in the head of a source, each behind a comma. -/
def dataText (xs : List Name) : List Char := xs.flatMap fun x => ", ".toList ++ x.text.toList

theorem readData_append (s : List Char) : ∀ {k : Nat} (xs : List Name), xs.length < k →
    readData k (dataText xs ++ ')' :: s) = (xs, ')' :: s)
  | 0, _, hk => by cases hk
  | k + 1, [], _ => rfl
  | k + 1, x :: xs, hk => by
    have ih := readData_append s (k := k) xs (by simpa using hk)
    have hends : EndsWord (dataText xs ++ ')' :: s) := by
      cases xs with
      | nil => exact .cons (by decide) _
      | cons y ys => simpa [dataText] using .cons (c := ',') (by decide) _
    have htext : dataText (x :: xs) ++ ')' :: s
        = ',' :: ' ' :: (x.text.toList ++ (dataText xs ++ ')' :: s)) := by
      simp [dataText]
    rw [htext, readData, readName_append x hends]
    simp only [ih]

end

/-- A source behind its data arguments. -/
def sourceTail (lines : List String) : List Char :=
  ')' :: (":\n    new_state = deepcopy(state)".toList ++ sourceRest lines)

theorem drop_sourceTail (lines : List String) :
    (sourceTail lines).drop "):\n    new_state = deepcopy(state)".toList.length
      = sourceRest lines := by
  have hlength : "):\n    new_state = deepcopy(state)".toList.length
      = ":\n    new_state = deepcopy(state)".toList.length + 1 := by simp
  rw [sourceTail, hlength, List.drop_succ_cons]
  exact List.drop_left

theorem toList_source (m : Model) (lines : List String) : ("\n".intercalate
    ([m.sourceHead, "    new_state = deepcopy(state)"] ++ lines ++ ["    return new_state"])).toList
      = "def ".toList ++ (m.name.text.toList ++
        ("(rng, state".toList ++ (dataText m.data ++ sourceTail lines))) := by
  simp [Model.sourceHead, dataText, sourceTail, sourceRest, String.toList_intercalate,
    intercalate_cons, List.flatMap_map]

/-- **A readable model is read off its source**, in which there are no more data arguments and
    no more statements than characters. -/
theorem readModel_source {m : Model} (hm : m.IsReadable) {t : String} (ht : m.source = .ok t) :
    readModel t.toList = some m := by
  obtain ⟨lines, hlines, ht⟩ := bind_eq_ok.1 ht
  cases ht
  have htext := toList_source m lines
  generalize ("\n".intercalate ([m.sourceHead, "    new_state = deepcopy(state)"] ++ lines
    ++ ["    return new_state"])).toList = s at htext ⊢
  have hlength := congrArg List.length htext
  simp only [List.length_append] at hlength
  rw [show "def ".toList.length = 4 from rfl] at hlength
  have hdata : m.data.length < s.length := by
    have hle : m.data.length ≤ (dataText m.data).length := length_le_flatMap (by simp)
    omega
  have hrest : (sourceRest lines).length < s.length := by
    rw [sourceTail, List.length_cons, List.length_append] at hlength
    omega
  have hsts : m.statements.length < s.length := by
    have hle := length_le_flatMap (f := fun line : String => '\n' :: line.toList) (l := lines)
      (by simp)
    rw [length_of_mapM hlines] at hle
    rw [sourceRest, List.length_append] at hrest
    omega
  have hhead : s.drop "def ".toList.length = m.name.text.toList ++
      ("(rng, state".toList ++ (dataText m.data ++ sourceTail lines)) := by
    rw [htext]
    exact List.drop_left
  have hname := readName_append m.name (s := "(rng, state".toList ++ (dataText m.data ++
    sourceTail lines)) (.append (c := '(') (by simp) (by decide) _)
  have hread : readData s.length (dataText m.data ++ sourceTail lines)
      = (m.data, sourceTail lines) := readData_append _ _ hdata
  have hstatements := readStatements_lines (n := s.length) (k := s.length) hm (fun _ h => h)
    hlines hrest hsts
  rw [readModel, hhead, hname]
  simp only [Option.bind_eq_bind, Option.bind_some, List.drop_left, hread, drop_sourceTail,
    hstatements]
  rfl

theorem Model.source_of_compile {m : Model} {c : CompiledStep} (h : m.compile.result = .ok c) :
    m.source = .ok c.source := by
  unfold compile at h
  cases hi : m.instructions with
  | error e => rw [hi] at h; cases h
  | ok is =>
    rw [hi] at h
    obtain ⟨t, ht, h⟩ := bind_eq_ok.1 (show m.stepOf is = .ok c from h)
    cases h
    exact ht

/-- **The source of a sweep determines the model.**  Two accepted models with the same source
    have the same name, the same data arguments and the same statements.  Two expressions with
    the same text are the same, whether their names are shown as they are or, as in the source of
    a model, as entries of the new state. -/
theorem source_determines_model (m m' : Model) :
    (m.IsReadable → m'.IsReadable → ∀ c c', m.compile.result = .ok c →
      m'.compile.result = .ok c' → c.source = c'.source → m = m') ∧
    ∀ e e' : Expr, e.isReadable = true → e'.isReadable = true →
      (e.text = e'.text ∨ e.render m.sourceName = e'.render m'.sourceName) → e = e' := by
  constructor
  · intro hm hm' c c' hc hc' h
    have hread := readModel_source hm (Model.source_of_compile hc)
    have hread' := readModel_source hm' (Model.source_of_compile hc')
    rw [h, hread'] at hread
    exact (Option.some.inj hread).symm
  · rintro e e' he he' (h | h)
    · exact render_inj spells_id spells_id he he' h
    · exact render_inj m.spells_sourceName m'.spells_sourceName he he' h

/-! ## A minus sign in front of an entry -/

/-- The first entry of the negative of `x`. -/
def entryOfNegation : Expr :=
  .unary (.index (.int 0)) (.unary .neg (.var ⟨"x", isIdentifier_x⟩))

/-- The negative of the first entry of `x`. -/
def negatedEntry : Expr :=
  .unary .neg (.unary (.index (.int 0)) (.var ⟨"x", isIdentifier_x⟩))

/-- A model that draws `x` around an expression. -/
def drawnAround (mu : Expr) : Model :=
  let x : Name := ⟨"x", isIdentifier_x⟩
  ⟨x, [], [.sample x (unitNormal mu)]⟩

theorem drawnAround_isReadable {mu : Expr} (h : mu.isReadable = true) :
    (drawnAround mu).IsReadable := by
  intro st hst
  obtain rfl := List.mem_singleton.1 hst
  exact {
    family := List.mem_cons_self
    isBuilt := ⟨_, ofOperands_unitNormal mu⟩
    parents := List.forall_mem_cons.2 ⟨h, List.forall_mem_singleton.2 rfl⟩ }

theorem negatedEntry_source_ne : entryOfNegation.isReadable = true ∧
    negatedEntry.isReadable = true ∧ (drawnAround entryOfNegation).IsReadable ∧
    (drawnAround negatedEntry).IsReadable ∧
    ∃ c c', (drawnAround entryOfNegation).compile.result = .ok c ∧
      (drawnAround negatedEntry).compile.result = .ok c' ∧ c.source ≠ c'.source ∧
      entryOfNegation.text ≠ negatedEntry.text ∧
      entryOfNegation.render (drawnAround entryOfNegation).sourceName
        ≠ negatedEntry.render (drawnAround negatedEntry).sourceName := by
  have he : entryOfNegation.isReadable = true := rfl
  have he' : negatedEntry.isReadable = true := rfl
  have hm := drawnAround_isReadable he
  have hm' := drawnAround_isReadable he'
  have hne : entryOfNegation ≠ negatedEntry := by rintro ⟨⟩
  have hmodels : drawnAround entryOfNegation ≠ drawnAround negatedEntry := by rintro ⟨⟩
  obtain ⟨c, hc⟩ : ∃ c, (drawnAround entryOfNegation).compile.result = .ok c := ⟨_, rfl⟩
  obtain ⟨c', hc'⟩ : ∃ c, (drawnAround negatedEntry).compile.result = .ok c := ⟨_, rfl⟩
  obtain ⟨hmodel, hexpr⟩ :=
    source_determines_model (drawnAround entryOfNegation) (drawnAround negatedEntry)
  exact ⟨he, he', hm, hm', c, c', hc, hc', fun h => hmodels (hmodel hm hm' c c' hc hc' h),
    fun h => hne (hexpr _ _ he he' (.inl h)), fun h => hne (hexpr _ _ he he' (.inr h))⟩

end Gibbs
