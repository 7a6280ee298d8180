/-
  Expressions are read off their texts.

  The text of an expression is read from left to right.  A word in front is a name, the name of
  a function with its operands behind it, or an integer; an opening bracket is that of an
  operation between two operands or of a negation; and what stands in square brackets behind is
  an index key.  Names may be shown as they are or as entries of the new state, and a text says
  for itself which of the two it does.

  * `Expr.isReadable`: variables, integers, and operations that come with the library;
  * `readBase`, `readKeys`, `readExpr`: reading an expression, with a bound for its depth;
  * `readBase_name`, `readBase_called`, …: one lemma for each way in which a text can begin, and
    `readKeys_keysText` for the keys behind it;
  * `readExpr_render`: a readable expression is read off its text, and so (`render_inj`) no other
    expression has the same one.
-/
import Gibbs.Proofs.Expr.Key
import Gibbs.Proofs.Model.Acceptance

namespace Gibbs

/-! ## Readable expressions -/

/-- Whether an operation on one expression comes with the library, with a readable key and with
    no truth value for an axis. -/
def UnaryOp.isReadable : UnaryOp → Bool
  | custom _ | sum (.flag _) => false
  | index k => k.isReadable
  | _ => true

namespace Expr

/-- Whether an expression is made of variables, integers and such operations. -/
def isReadable : Expr → Bool
  | var _ => true
  | literal (.plain (.int _)) => true
  | literal _ => false
  | bare => false
  | unary op e => op.isReadable && e.isReadable
  | binary op l r => op.isStandard && l.isReadable && r.isReadable

theorem isDisplayable_of_isReadable {e : Expr} (h : e.isReadable = true) :
    e.isDisplayable = true := by
  induction e with
  | var n => rfl
  | literal v => rfl
  | bare => cases h
  | unary op e ih =>
    rw [isReadable, Bool.and_eq_true] at h
    have hop : op.isDisplayable = true := by
      cases op with
      | custom c => cases h.1
      | _ => rfl
    rw [isDisplayable, hop, ih h.2, Bool.and_self]
  | binary op l r ihl ihr =>
    rw [isReadable, Bool.and_eq_true, Bool.and_eq_true] at h
    rw [isDisplayable, BinaryOp.isDisplayable_of_isStandard h.1.1, ihl h.1.2, ihr h.2]
    rfl

/-- An expression with index keys behind it. -/
def indexed : Expr → List Key → Expr
  | e, [] => e
  | e, k :: ks => (unary (.index k) e).indexed ks

end Expr

/-! ## Reading -/

/-- The functions of one operand, by their symbols, and below those of two operands and the
    operators between them. -/
def UnaryOp.functions : List (String × UnaryOp) :=
  [("abs", .element .abs), ("exp", .element .exp), ("log", .element .log),
    ("log1p", .element .log1p), ("sqrt", .element .sqrt), ("sin", .element .sin),
    ("cos", .element .cos), ("tanh", .element .tanh), ("sum", .sum .all), ("inv", .inverse),
    ("transpose", .transpose), ("diag", .diagonal)]

def BinaryOp.products : List (String × BinaryOp) := [("outer", .outer), ("dot", .dot)]

def BinaryOp.operators : List (String × BinaryOp) :=
  [("+", .arith .add), ("-", .arith .sub), ("*", .arith .mul), ("/", .arith .div),
    ("**", .arith .pow), ("@", .matmul)]

/-- Whether a text can stand in front of a bracket: a word, but not an empty one. -/
def isSymbol (s : String) : Bool := !s.toList.isEmpty && s.toList.all Text.continuesIdentifier

theorem of_lookup {α : Type} {p : String → Bool} {l : List (String × α)} {s : String} {a : α}
    (hl : l.all (fun x => p x.1) = true) (h : l.lookup s = some a) : p s = true := by
  obtain ⟨l₁, l₂, rfl, -⟩ := List.lookup_eq_some_iff.1 h
  exact List.all_eq_true.1 hl (s, a) (List.mem_append_right l₁ List.mem_cons_self)

theorem UnaryOp.isSymbol_of_lookup {s : String} {op : UnaryOp}
    (h : functions.lookup s = some op) : isSymbol s = true :=
  of_lookup (p := isSymbol) (by decide) h

theorem BinaryOp.isSymbol_of_lookup {s : String} {op : BinaryOp}
    (h : products.lookup s = some op) : isSymbol s = true :=
  of_lookup (p := isSymbol) (by decide) h

theorem BinaryOp.not_mem_of_lookup {s : String} {op : BinaryOp}
    (h : operators.lookup s = some op) : ' ' ∉ s.toList :=
  of_decide_eq_true (of_lookup (p := fun s => decide (' ' ∉ s.toList)) (by decide) h)

/-- What is read from the front of a text, and what comes after it. -/
abbrev Reader := List Char → Option (Expr × List Char)

section
variable (read : Reader)

/-- Behind the bracket of a function: its operands. -/
def readCall (symbol : String) (s : List Char) : Option (Expr × List Char) := do
  let (x, s) ← read s
  match s with
  | ')' :: s => do
    let op ← UnaryOp.functions.lookup symbol
    return (.unary op x, s)
  | ',' :: ' ' :: s =>
    match BinaryOp.products.lookup symbol with
    | some op => do
      let (y, s) ← read s
      return (.binary op x y, s.drop 1)
    | none =>
      let (axis, s) := (s.drop "axis=".length).span (· != ')')
      return (.unary (.sum (.at (readInt axis))) x, s.drop 1)
  | _ => none

/-- Behind a bracket: two operands and the operator between them. -/
def readInfix (s : List Char) : Option (Expr × List Char) := do
  let (x, s) ← read s
  let (symbol, s) := (s.drop 1).span (· != ' ')
  let op ← BinaryOp.operators.lookup (String.ofList symbol)
  let (y, s) ← read (s.drop 1)
  return (.binary op x y, s.drop 1)

/-- Behind a bracket: a negation, or two operands of which the first may begin with a minus sign
    of its own. -/
def readBracket : List Char → Option (Expr × List Char)
  | '-' :: s => do
    let (x, t) ← read s
    match t with
    | ')' :: t => return (.unary .neg x, t)
    | _ => readInfix read ('-' :: s)
  | s => readInfix read s

/-- A word by itself: an integer or a name. -/
def readWord (w : List Char) : Option Expr :=
  if w.head?.any Char.isDigit then some (.literal (.int (readInt w)))
  else (Name.ofText? (String.ofList w)).map .var

/-- An expression without index keys behind it. -/
def readBase (s : List Char) : Option (Expr × List Char) :=
  match word s with
  | ([], '(' :: s) => readBracket read s
  | ([], '-' :: s) =>
    let (digits, s) := word s
    some (.literal (.int (readInt ('-' :: digits))), s)
  | ([], _) => none
  | (w, '(' :: s) => readCall read (String.ofList w) s
  | (_, '[' :: '"' :: s) => do
    let (w, s) := word s
    return (← readWord w, s.drop 2)
  | (w, s) => do return (← readWord w, s)

end

/-- The index keys behind an expression. -/
def readKeys : Nat → Expr → List Char → Option (Expr × List Char)
  | n + 1, e, '[' :: s => do
    let (key, s) := s.span (· != ']')
    let k ← readKey key
    readKeys n (.unary (.index k) e) (s.drop 1)
  | _, e, s => some (e, s)

/-- An expression of at most a given depth. -/
def readExpr : Nat → List Char → Option (Expr × List Char)
  | 0, _ => none
  | n + 1, s => do
    let (e, s) ← readBase (readExpr n) s
    readKeys n e s

/-! ## What may follow -/

/-- The index keys of an expression, each in its brackets. -/
def keysText (ks : List Key) : List Char :=
  ks.flatMap fun k => '[' :: (k.bracketText.toList ++ [']'])

/-- A text behind an expression with all its keys. -/
def EndsExpr (u : List Char) : Prop :=
  ∀ c t, u = c :: t → Text.continuesIdentifier c = false ∧ c ≠ '(' ∧ c ≠ '['

/-- A text behind an expression: a key may come next. -/
def EndsBase (u : List Char) : Prop :=
  ∀ c t, u = c :: t → Text.continuesIdentifier c = false ∧ c ≠ '(' ∧
    (c = '[' → ∀ d v, t = d :: v → d ≠ '"')

theorem EndsExpr.cons {c : Char} (h : Text.continuesIdentifier c = false ∧ c ≠ '(' ∧ c ≠ '[')
    (u : List Char) : EndsExpr (c :: u) := by
  rintro _ _ ⟨⟩
  exact h

theorem EndsBase.endsWord {u : List Char} (h : EndsBase u) : EndsWord u :=
  fun c t hu => (h c t hu).1

theorem EndsExpr.endsBase {u : List Char} (h : EndsExpr u) : EndsBase u := by
  intro c t hu
  obtain ⟨hc, hcall, hindex⟩ := h c t hu
  exact ⟨hc, hcall, fun hc => absurd hc hindex⟩

theorem keysText_cons (k : Key) (ks : List Key) (u : List Char) :
    keysText (k :: ks) ++ u = '[' :: (k.bracketText.toList ++ ']' :: (keysText ks ++ u)) := by
  simp [keysText]

/-- No key begins with a quotation mark, as the name of an entry does. -/
theorem endsBase_keysText {ks : List Key} (hks : ∀ k ∈ ks, k.isReadable = true) {u : List Char}
    (hu : EndsExpr u) : EndsBase (keysText ks ++ u) := by
  cases ks with
  | nil => exact hu.endsBase
  | cons k ks =>
    have hquote : '"' ∉ k.bracketText.toList :=
      not_mem_bracketText (by decide) (by decide) (hks k List.mem_cons_self)
    rw [keysText_cons]
    rintro _ _ ⟨⟩
    refine ⟨by decide, by decide, fun _ d v h => ?_⟩
    rintro rfl
    cases hk : k.bracketText.toList with
    | nil => rw [hk] at h; cases h
    | cons c rest =>
      rw [hk] at h hquote
      cases h
      exact hquote List.mem_cons_self

theorem readKeys_keysText {ks : List Key} : ∀ {n : Nat} {e : Expr} {u : List Char},
    (∀ k ∈ ks, k.isReadable = true) → ks.length ≤ n → EndsExpr u →
    readKeys n e (keysText ks ++ u) = some (e.indexed ks, u) := by
  induction ks with
  | nil =>
    intro n e u _ _ hu
    rw [show keysText [] ++ u = u from rfl]
    unfold readKeys
    split
    · exact absurd rfl (hu _ _ rfl).2.2
    · rfl
  | cons k ks ih =>
    intro n e u hks hn hu
    obtain ⟨hk, hrest⟩ := List.forall_mem_cons.1 hks
    obtain ⟨n, rfl⟩ : ∃ m, n = m + 1 := Nat.exists_eq_add_one.2 (Nat.lt_of_lt_of_le (by simp) hn)
    have hbracket : ∀ c ∈ k.bracketText.toList, (c != ']') = true := fun c hc =>
      bne_iff_ne.2 fun h => not_mem_bracketText (by decide) (by decide) hk (h ▸ hc)
    have hspan := span_append (s := ']' :: (keysText ks ++ u)) hbracket
      (by rintro _ _ ⟨⟩; rfl)
    rw [keysText_cons, readKeys, hspan]
    simp only [readKey_bracketText hk, Option.bind_eq_bind, Option.bind_some, List.drop_succ_cons,
      List.drop_zero]
    exact ih hrest (Nat.le_of_succ_le_succ hn) hu

/-! ## Reading one node -/

section
variable {read : Reader} {x y : String} {e e' : Expr} {u w : List Char}

theorem readBase_word (hw : w.all Text.continuesIdentifier = true) (hne : w ≠ [])
    (hu : EndsBase u) : readBase read (w ++ u) = (readWord w).map (·, u) := by
  obtain ⟨c, w, rfl⟩ := List.exists_cons_of_ne_nil hne
  unfold readBase
  rw [word_append hw hu.endsWord]
  split
  · next h => cases h
  · next h => cases h
  · next h => cases h
  · next h => cases h; exact absurd rfl (hu _ _ rfl).2.1
  · next h => cases h; exact absurd rfl ((hu _ _ rfl).2.2 rfl _ _ rfl)
  · next h => cases h; cases readWord (c :: w) <;> rfl

theorem readWord_name (n : Name) : readWord n.text.toList = some (.var n) := by
  obtain ⟨c, rest, hl, hc, -⟩ := n.exists_cons
  have hdigit : n.text.toList.head?.any Char.isDigit = false := by
    rw [hl]; exact Text.isDigit_of_opens hc
  rw [readWord, hdigit, String.ofList_toList, Name.ofText?_text]
  rfl

theorem readWord_toDigits (n : Nat) :
    readWord (Nat.toDigits 10 n) = some (.literal (.int n)) := by
  obtain ⟨c, rest, hl⟩ := List.exists_cons_of_ne_nil (Nat.toDigits_ne_nil (n := n) (b := 10))
  have hc : c.isDigit = true :=
    Nat.isDigit_of_mem_toDigits (by decide) (by decide) (hl ▸ List.mem_cons_self)
  have hdigit : (Nat.toDigits 10 n).head?.any Char.isDigit = true := by
    rw [hl]; exact hc
  rw [readWord, if_pos hdigit, readInt_toDigits]

theorem all_continues_toDigits (n : Nat) :
    (Nat.toDigits 10 n).all Text.continuesIdentifier = true := List.all_eq_true.2 fun _ hc =>
  Text.continuesIdentifier_of_isDigit (Nat.isDigit_of_mem_toDigits (by decide) (by decide) hc)

theorem readBase_name (n : Name) (hu : EndsBase u) :
    readBase read (n.text.toList ++ u) = some (.var n, u) := by
  obtain ⟨c, rest, hl, -⟩ := n.exists_cons
  rw [readBase_word n.all_continues (by rw [hl]; exact List.cons_ne_nil _ _) hu, readWord_name]
  rfl

theorem readBase_entry (n : Name) :
    readBase read ((Model.stateEntry n.text).toList ++ u) = some (.var n, u) := by
  have htext : (Model.stateEntry n.text).toList ++ u
      = "new_state".toList ++ '[' :: '"' :: (n.text.toList ++ '"' :: ']' :: u) := by
    simp [Model.stateEntry]
  have hword := word_append n.all_continues (.cons (c := '"') (by decide) (']' :: u))
  have hl : "new_state".toList = 'n' :: "ew_state".toList := by simp
  rw [htext, readBase, word_append (by decide) (.cons (by decide) _), hl]
  simp only [hword, readWord_name]
  rfl

theorem readBase_int (i : Int) (hu : EndsBase u) :
    readBase read ((toString i).toList ++ u) = some (.literal (.int i), u) := by
  cases i with
  | ofNat n =>
    rw [show (toString (Int.ofNat n)).toList = Nat.toDigits 10 n from toList_toString_ofNat n,
      readBase_word (all_continues_toDigits n) Nat.toDigits_ne_nil hu, readWord_toDigits]
    rfl
  | negSucc n =>
    have hminus : word ('-' :: (Nat.toDigits 10 (n + 1) ++ u))
        = ([], '-' :: (Nat.toDigits 10 (n + 1) ++ u)) :=
      word_append (w := []) (by simp) (.cons (by decide) _)
    have hint := readInt_toString (Int.negSucc n)
    rw [toList_toString_negSucc] at hint
    rw [toList_toString_negSucc, List.cons_append, readBase, hminus]
    simp only [word_append (all_continues_toDigits (n + 1)) hu.endsWord, hint]

theorem readBase_bracket (s : List Char) :
    readBase read ('(' :: s) = readBracket read s := by
  have hword : word ('(' :: s) = ([], '(' :: s) :=
    word_append (w := []) (by simp) (.cons (by decide) _)
  rw [readBase, hword]
  rfl

theorem readBase_symbol {symbol : String} (hs : isSymbol symbol = true) (s : List Char) :
    readBase read (symbol.toList ++ '(' :: s) = readCall read symbol s := by
  rw [isSymbol, Bool.and_eq_true, Bool.not_eq_true', List.isEmpty_eq_false_iff] at hs
  obtain ⟨c, rest, hl⟩ := List.exists_cons_of_ne_nil hs.1
  have hsymbol : String.ofList (c :: rest) = symbol := by rw [← hl, String.ofList_toList]
  rw [readBase, word_append hs.2 (.cons (by decide) _), hl]
  simp only [hsymbol]

theorem readBase_called {symbol : String} {op : UnaryOp}
    (hop : UnaryOp.functions.lookup symbol = some op)
    (hx : read (x.toList ++ ')' :: u) = some (e, ')' :: u)) :
    readBase read ((called symbol x).toList ++ u) = some (.unary op e, u) := by
  have htext : (called symbol x).toList ++ u = symbol.toList ++ '(' :: (x.toList ++ ')' :: u) := by
    simp [called]
  rw [htext, readBase_symbol (UnaryOp.isSymbol_of_lookup hop), readCall, hx]
  simp [hop]

theorem readBase_product {symbol : String} {op : BinaryOp}
    (hop : BinaryOp.products.lookup symbol = some op)
    (hx : ∀ s, read (x.toList ++ ',' :: s) = some (e, ',' :: s))
    (hy : read (y.toList ++ ')' :: u) = some (e', ')' :: u)) :
    readBase read ((called symbol (x ++ ", " ++ y)).toList ++ u) = some (.binary op e e', u) := by
  have htext : (called symbol (x ++ ", " ++ y)).toList ++ u
      = symbol.toList ++ '(' :: (x.toList ++ ',' :: ' ' :: (y.toList ++ ')' :: u)) := by
    simp [called]
  rw [htext, readBase_symbol (BinaryOp.isSymbol_of_lookup hop), readCall, hx]
  simp [hop, hy]

theorem readBase_sum (i : Int) (hx : ∀ s, read (x.toList ++ ',' :: s) = some (e, ',' :: s)) :
    readBase read ((called "sum" (x ++ ", axis=" ++ toString i)).toList ++ u)
      = some (.unary (.sum (.at i)) e, u) := by
  have htext : (called "sum" (x ++ ", axis=" ++ toString i)).toList ++ u = "sum".toList ++ '(' ::
      (x.toList ++ ',' :: ' ' :: ("axis=".toList ++ ((toString i).toList ++ ')' :: u))) := by
    simp [called]
  have hclose : ∀ c ∈ (toString i).toList, (c != ')') = true := fun c hc =>
    bne_iff_ne.2 fun h => not_mem_toString (by decide) (by decide) i (h ▸ hc)
  have haxis : ("axis=".toList ++ ((toString i).toList ++ ')' :: u)).drop "axis=".length
      = (toString i).toList ++ ')' :: u := List.drop_left
  have hspan := span_append (s := ')' :: u) hclose (by rintro _ _ ⟨⟩; rfl)
  rw [htext, readBase_symbol (by decide), readCall, hx]
  simp only [Option.bind_eq_bind, Option.bind_some, BinaryOp.products, haxis, hspan,
    readInt_toString]
  rfl

theorem readBase_neg (hx : read (x.toList ++ ')' :: u) = some (e, ')' :: u)) :
    readBase read (("(-" ++ x ++ ")").toList ++ u) = some (.unary .neg e, u) := by
  have htext : ("(-" ++ x ++ ")").toList ++ u = '(' :: '-' :: (x.toList ++ ')' :: u) := by simp
  rw [htext, readBase_bracket, readBracket, hx]
  rfl

theorem readInfix_between {symbol : String} {op : BinaryOp}
    (hop : BinaryOp.operators.lookup symbol = some op)
    (hx : ∀ s, read (x.toList ++ ' ' :: s) = some (e, ' ' :: s))
    (hy : read (y.toList ++ ')' :: u) = some (e', ')' :: u)) :
    readInfix read (x.toList ++ ' ' :: (symbol.toList ++ ' ' :: (y.toList ++ ')' :: u)))
      = some (.binary op e e', u) := by
  have hsymbol : ∀ c ∈ symbol.toList, (c != ' ') = true := fun c hc =>
    bne_iff_ne.2 fun h => BinaryOp.not_mem_of_lookup hop (h ▸ hc)
  have hspan := span_append (s := ' ' :: (y.toList ++ ')' :: u)) hsymbol (by rintro _ _ ⟨⟩; rfl)
  rw [readInfix, hx]
  simp only [Option.bind_eq_bind, Option.bind_some, List.drop_succ_cons, List.drop_zero, hspan,
    String.ofList_toList, hop, hy]
  rfl

/-- **Two operands** with an operator between them.  A first operand that begins with a minus
    sign is not mistaken for a negation, since no bracket closes behind it. -/
theorem readBase_between {symbol : String} {op : BinaryOp}
    (hop : BinaryOp.operators.lookup symbol = some op)
    (hminus : ∀ t, x.toList = '-' :: t → ∃ z, ∀ s, read (t ++ ' ' :: s) = some (z, ' ' :: s))
    (hx : ∀ s, read (x.toList ++ ' ' :: s) = some (e, ' ' :: s))
    (hy : read (y.toList ++ ')' :: u) = some (e', ')' :: u)) :
    readBase read ((between symbol x y).toList ++ u) = some (.binary op e e', u) := by
  have htext : (between symbol x y).toList ++ u
      = '(' :: (x.toList ++ ' ' :: (symbol.toList ++ ' ' :: (y.toList ++ ')' :: u))) := by
    simp [between]
  have hinfix := readInfix_between hop hx hy
  rw [htext, readBase_bracket]
  unfold readBracket
  split
  · next t ht =>
    cases hl : x.toList with
    | nil => rw [hl] at ht; cases ht
    | cons c rest =>
      rw [hl, List.cons_append] at ht hinfix
      cases ht
      -- what is read behind the minus sign ends at a space, so this is no negation
      obtain ⟨z, hz⟩ := hminus rest hl
      rw [hz]
      exact hinfix
  · exact hinfix

end

/-! ## Reading expressions -/

/-- A way to show names, each as it is or as an entry of the new state. -/
def Spells (f : String → String) : Prop :=
  ∀ n : Name, f n.text = n.text ∨ f n.text = Model.stateEntry n.text

section
variable {f : String → String}

theorem ne_minus_of_opens {c : Char} (h : Text.opensIdentifier c = true) : c ≠ '-' := by
  rintro rfl
  cases h

/-- **A text with a minus sign in front** is that of a negative integer, with or without index
    keys, and goes on as the text of a positive one. -/
theorem exists_of_minus (hf : Spells f) {e : Expr} (he : e.isReadable = true) :
    ∀ {t : String} {s : List Char}, e.render f = .ok t → t.toList = '-' :: s →
      ∃ x : Expr, x.isReadable = true ∧ x.render f = .ok (String.ofList s) := by
  induction e with
  | var n =>
    intro t s h ht
    cases h
    rcases hf n with hn | hn
    · obtain ⟨c, rest, hl, hc, -⟩ := n.exists_cons
      rw [hn, hl] at ht
      cases ht
      exact absurd rfl (ne_minus_of_opens hc)
    · rw [hn] at ht
      simp [Model.stateEntry] at ht
  | literal v =>
    intro t s h ht
    match v, he with
    | .plain (.int (.ofNat n)), _ =>
      cases h
      rw [show (Value.plain (.int (.ofNat n))).written = toString (n : Int) from rfl,
        toList_toString_ofNat] at ht
      exact absurd (ht ▸ List.mem_cons_self) (not_mem_toDigits (by decide) n)
    | .plain (.int (.negSucc n)), _ =>
      cases h
      rw [show (Value.plain (.int (.negSucc n))).written = toString (Int.negSucc n) from rfl,
        toList_toString_negSucc] at ht
      cases ht
      refine ⟨.literal (.int (n + 1 : Nat)), rfl, congrArg Except.ok ?_⟩
      exact String.toList_inj.1 ((toList_toString_ofNat (n + 1)).trans (by simp))
  | bare => cases he
  | unary op e ih =>
    intro t s h ht
    rw [Expr.isReadable, Bool.and_eq_true] at he
    obtain ⟨x, hx, h⟩ := bind_eq_ok.1 h
    cases op with
    | index k =>
      cases h
      simp only [String.toList_append] at ht
      cases hl : x.toList with
      | nil => rw [hl] at ht; simp at ht
      | cons c rest =>
        rw [hl] at ht
        simp only [List.cons_append, List.cons.injEq] at ht
        obtain ⟨rfl, rfl⟩ := ht
        obtain ⟨z, hz, hrender⟩ := ih he.2 hx hl
        refine ⟨.unary (.index k) z, ?_, ?_⟩
        · rw [Expr.isReadable, hz, Bool.and_true]; exact he.1
        · refine bind_eq_ok.2 ⟨_, hrender, congrArg Except.ok ?_⟩
          exact String.toList_inj.1 (by simp)
    | element el => cases el <;> cases h <;> simp [called, Element.symbol] at ht
    | sum axis =>
      cases axis with
      | flag b => cases he.1
      | _ => cases h; simp [called] at ht
    | custom c => cases he.1
    | _ => cases h; simp [called] at ht
  | binary op l r ihl ihr =>
    intro t s h ht
    rw [Expr.isReadable, Bool.and_eq_true, Bool.and_eq_true] at he
    obtain ⟨x, hx, h⟩ := bind_eq_ok.1 h
    obtain ⟨y, hy, h⟩ := bind_eq_ok.1 h
    cases op with
    | custom c => cases he.1.1
    | _ => cases h; simp [called, between] at ht

/-- What it takes to read the operands of an expression. -/
def ReadsUpTo (f : String → String) (read : Reader) (n : Nat) : Prop :=
  ∀ {x : Expr} {t : String} {u : List Char}, x.isReadable = true → x.render f = .ok t →
    t.toList.length < n → EndsExpr u → read (t.toList ++ u) = some (x, u)

theorem length_called (symbol x : String) :
    (called symbol x).toList.length = symbol.toList.length + x.toList.length + 2 := by
  simp only [called, String.toList_append, List.length_append]
  rw [show "(".toList.length = 1 from rfl, show ")".toList.length = 1 from rfl]
  omega

theorem length_between (symbol x y : String) : (between symbol x y).toList.length
    = symbol.toList.length + x.toList.length + y.toList.length + 4 := by
  simp only [between, String.toList_append, List.length_append]
  rw [show "(".toList.length = 1 from rfl, show ")".toList.length = 1 from rfl,
    show " ".toList.length = 1 from rfl]
  omega

section
variable {read : Reader} {n : Nat}

theorem readBase_unary (hread : ReadsUpTo f read n) {op : UnaryOp} {x : Expr} {t : String}
    {u : List Char} (hop : op.isReadable = true) (hx : x.isReadable = true)
    (hindex : ∀ k, op ≠ .index k) (h : (Expr.unary op x).render f = .ok t)
    (hn : t.toList.length < n + 1) : readBase read (t.toList ++ u) = some (.unary op x, u) := by
  obtain ⟨tx, htx, h⟩ := bind_eq_ok.1 h
  have hclose : tx.toList.length < n → read (tx.toList ++ ')' :: u) = some (x, ')' :: u) :=
    fun hn => hread hx htx hn (.cons (by decide) u)
  have hcomma : tx.toList.length < n → ∀ s, read (tx.toList ++ ',' :: s) = some (x, ',' :: s) :=
    fun hn s => hread hx htx hn (.cons (by decide) s)
  have hcalled : ∀ {symbol}, UnaryOp.functions.lookup symbol = some op →
      (called symbol tx).toList.length < n + 1 →
      readBase read ((called symbol tx).toList ++ u) = some (.unary op x, u) := by
    intro symbol hlookup hn
    rw [length_called] at hn
    exact readBase_called hlookup (hclose (by omega))
  cases op with
  | neg =>
    cases h
    have hlength : ("(-" ++ tx ++ ")").toList.length = tx.toList.length + 3 := by simp
    exact readBase_neg (hclose (by omega))
  | element el =>
    cases h
    cases el <;> exact hcalled rfl hn
  | sum axis =>
    cases axis with
    | all => cases h; exact hcalled rfl hn
    | «at» i =>
      cases h
      rw [length_called, String.toList_append, String.toList_append, List.length_append,
        List.length_append] at hn
      exact readBase_sum i (hcomma (by omega))
    | flag b => cases hop
  | inverse => cases h; exact hcalled rfl hn
  | transpose => cases h; exact hcalled rfl hn
  | diagonal => cases h; exact hcalled rfl hn
  | index k => exact absurd rfl (hindex k)
  | custom c => cases hop

theorem readBase_binary (hf : Spells f) (hread : ReadsUpTo f read n) {op : BinaryOp} {l r : Expr}
    {t : String} {u : List Char} (hop : op.isStandard = true) (hl : l.isReadable = true)
    (hr : r.isReadable = true) (h : (Expr.binary op l r).render f = .ok t)
    (hn : t.toList.length < n + 1) :
    readBase read (t.toList ++ u) = some (.binary op l r, u) := by
  obtain ⟨tl, htl, h⟩ := bind_eq_ok.1 h
  obtain ⟨tr, htr, h⟩ := bind_eq_ok.1 h
  have hclose : tr.toList.length < n → read (tr.toList ++ ')' :: u) = some (r, ')' :: u) :=
    fun hn => hread hr htr hn (.cons (by decide) u)
  have hbetween : ∀ {symbol}, BinaryOp.operators.lookup symbol = some op →
      (between symbol tl tr).toList.length < n + 1 →
      readBase read ((between symbol tl tr).toList ++ u) = some (.binary op l r, u) := by
    intro symbol hlookup hn
    rw [length_between] at hn
    refine readBase_between hlookup (fun s hs => ?_)
      (fun s => hread hl htl (by omega) (.cons (by decide) s)) (hclose (by omega))
    obtain ⟨z, hz, hrender⟩ := exists_of_minus hf hl htl hs
    have hlength : tl.toList.length = s.length + 1 := by rw [hs]; rfl
    refine ⟨z, fun v => ?_⟩
    have hread' := hread hz hrender (u := ' ' :: v) (by simp; omega) (.cons (by decide) v)
    rwa [String.toList_ofList] at hread'
  have hproduct : ∀ {symbol}, BinaryOp.products.lookup symbol = some op →
      (called symbol (tl ++ ", " ++ tr)).toList.length < n + 1 →
      readBase read ((called symbol (tl ++ ", " ++ tr)).toList ++ u)
        = some (.binary op l r, u) := by
    intro symbol hlookup hn
    rw [length_called, String.toList_append, String.toList_append, List.length_append,
      List.length_append] at hn
    exact readBase_product hlookup
      (fun s => hread hl htl (by omega) (.cons (by decide) s)) (hclose (by omega))
  cases op with
  | arith a =>
    cases h
    cases a <;> exact hbetween rfl hn
  | matmul => cases h; exact hbetween rfl hn
  | outer => cases h; exact hproduct rfl hn
  | dot => cases h; exact hproduct rfl hn
  | custom c => cases hop

/-- **An expression without index keys** is read if its operands are. -/
theorem readBase_render (hf : Spells f) (hread : ReadsUpTo f read n) {e : Expr} {t : String}
    {u : List Char} (he : e.isReadable = true) (hindex : ∀ k x, e ≠ .unary (.index k) x)
    (h : e.render f = .ok t) (hn : t.toList.length < n + 1) (hu : EndsBase u) :
    readBase read (t.toList ++ u) = some (e, u) := by
  cases e with
  | var x =>
    cases h
    rcases hf x with hx | hx
    · rw [hx]; exact readBase_name x hu
    · rw [hx]; exact readBase_entry x
  | literal v =>
    match v, he with
    | .plain (.int i), _ => cases h; exact readBase_int i hu
  | bare => cases he
  | unary op x =>
    rw [Expr.isReadable, Bool.and_eq_true] at he
    exact readBase_unary hread he.1 he.2 (fun k hk => hindex k x (by rw [hk])) h hn
  | binary op l r =>
    rw [Expr.isReadable, Bool.and_eq_true, Bool.and_eq_true] at he
    exact readBase_binary hf hread he.1.1 he.1.2 he.2 h hn

end

/-- An expression that index keys stand behind, read together with the keys.  The induction on
    the bound reads the operands; the one on the expression moves the key of an index expression
    among those behind it. -/
theorem readExpr_indexed (hf : Spells f) : ∀ (n : Nat) {e : Expr} (ks : List Key) {t : String}
    {u : List Char}, e.isReadable = true → (∀ k ∈ ks, k.isReadable = true) → e.render f = .ok t →
    (t.toList ++ keysText ks).length < n → EndsExpr u →
    readExpr n (t.toList ++ (keysText ks ++ u)) = some (e.indexed ks, u) := by
  intro n
  induction n with
  | zero =>
    intro e ks t u _ _ _ hn
    cases hn
  | succ n ihn =>
    have hread : ReadsUpTo f (readExpr n) n := by
      intro x t u hx ht hn hu
      exact ihn [] hx (by simp) ht (by simpa [keysText] using hn) hu
    have hbase : ∀ {e : Expr} {ks : List Key} {t : String} {u : List Char}, e.isReadable = true →
        (∀ k x, e ≠ .unary (.index k) x) → (∀ k ∈ ks, k.isReadable = true) →
        e.render f = .ok t → (t.toList ++ keysText ks).length < n + 1 → EndsExpr u →
        readExpr (n + 1) (t.toList ++ (keysText ks ++ u)) = some (e.indexed ks, u) := by
      intro e ks t u he hindex hks ht hn hu
      rw [List.length_append] at hn
      have hlength : ks.length ≤ (keysText ks).length := length_le_flatMap (by simp)
      rw [readExpr, readBase_render hf hread he hindex ht (by omega) (endsBase_keysText hks hu)]
      exact readKeys_keysText hks (by omega) hu
    intro e
    induction e with
    | unary op e ih =>
      intro ks t u he hks ht hn hu
      by_cases hop : ∃ k, op = .index k
      · obtain ⟨k, rfl⟩ := hop
        obtain ⟨tx, htx, h⟩ := bind_eq_ok.1 ht
        cases h
        rw [Expr.isReadable, Bool.and_eq_true] at he
        have htext : ∀ v, (tx ++ "[" ++ k.bracketText ++ "]").toList ++ (keysText ks ++ v)
            = tx.toList ++ (keysText (k :: ks) ++ v) := by
          intro v
          simp [keysText_cons]
        have hnil := htext []
        rw [List.append_nil, List.append_nil] at hnil
        rw [htext]
        exact ih (k :: ks) he.2 (List.forall_mem_cons.2 ⟨he.1, hks⟩) htx (hnil ▸ hn) hu
      · exact hbase he (fun k x h => hop ⟨k, (Expr.unary.inj h).1⟩) hks ht hn hu
    | var x => intro ks t u he; exact hbase he (by rintro _ _ ⟨⟩)
    | literal v => intro ks t u he; exact hbase he (by rintro _ _ ⟨⟩)
    | bare => intro ks t u he; cases he
    | binary op l r => intro ks t u he; exact hbase he (by rintro _ _ ⟨⟩)

/-- **An expression is read off its text**, up to a character that cannot go on with it. -/
theorem readExpr_render (hf : Spells f) {n : Nat} {e : Expr} {t : String} {u : List Char}
    (he : e.isReadable = true) (ht : e.render f = .ok t) (hn : t.toList.length < n)
    (hu : EndsExpr u) : readExpr n (t.toList ++ u) = some (e, u) :=
  readExpr_indexed hf n [] he (by simp) ht (by simpa [keysText] using hn) hu

end

/-- **Texts of expressions** are those of one expression each, also if they show their names
    in different ways. -/
theorem render_inj {f g : String → String} (hf : Spells f) (hg : Spells g) {e e' : Expr}
    (he : e.isReadable = true) (he' : e'.isReadable = true) (h : e.render f = e'.render g) :
    e = e' := by
  obtain ⟨t, ht⟩ := (Expr.render_ok_iff f).2 (Expr.isDisplayable_of_isReadable he)
  have hend : EndsExpr [] := by rintro _ _ ⟨⟩
  have hread := readExpr_render hf he ht (Nat.lt_succ_self _) hend
  have hread' := readExpr_render hg he' (h.symm.trans ht) (Nat.lt_succ_self _) hend
  rw [hread'] at hread
  cases hread
  rfl

end Gibbs
