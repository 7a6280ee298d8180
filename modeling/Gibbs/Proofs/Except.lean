/-
  Computations that may fail, taken apart.

  * `bind_eq_ok`, `bind₂_eq_ok`, `bind_eq_error`: when one computation after the other gives a
    result, and when it fails;
  * `mapM_cons_eq_ok`, `mapM_eq_error_split`: when a traversal gives a list of results, and
    where it fails first;
  * `mapM_ok`: a traversal of which no step fails;
  * `mapM_eq_ok_append_cons`, `mapM_append_cons_eq_ok`: traversals split at a result, or at a
    member;
  * `mapM_of_mapM`: a traversal of the results of a traversal;
  * `forM_eq_ok`, `forM_eq_error`: checks one after the other;
  * `map_ok_filterMap_toOption`: the results of computations of which none fails.
-/

namespace Gibbs

variable {ε α β γ : Type}

theorem bind_eq_ok {x : Except ε α} {f : α → Except ε β} {b : β} :
    x >>= f = .ok b ↔ ∃ a, x = .ok a ∧ f a = .ok b := by
  cases x with
  | error e => exact ⟨fun h => (by cases h), fun ⟨_, h, _⟩ => (by cases h)⟩
  | ok a =>
    constructor
    · exact fun h => ⟨a, rfl, h⟩
    · rintro ⟨_, ha, h⟩; cases ha; exact h

theorem bind₂_eq_ok {x : Except ε α} {y : Except ε β} {f : α → β → Except ε γ} {c : γ} :
    (x >>= fun a => y >>= fun b => f a b) = .ok c ↔
      ∃ a b, x = .ok a ∧ y = .ok b ∧ f a b = .ok c := by
  rw [bind_eq_ok]
  constructor
  · rintro ⟨a, ha, h⟩
    obtain ⟨b, hb, h⟩ := bind_eq_ok.1 h
    exact ⟨a, b, ha, hb, h⟩
  · rintro ⟨a, b, ha, hb, h⟩
    exact ⟨a, ha, bind_eq_ok.2 ⟨b, hb, h⟩⟩

theorem bind_eq_error {x : Except ε α} {f : α → Except ε β} {e : ε} :
    x >>= f = .error e ↔ x = .error e ∨ ∃ a, x = .ok a ∧ f a = .error e := by
  cases x with
  | error e' =>
    refine ⟨fun h => .inl (by cases h; rfl), fun h => ?_⟩
    rcases h with h | ⟨_, h, _⟩
    · cases h; rfl
    · cases h
  | ok a =>
    refine ⟨fun h => .inr ⟨a, rfl, h⟩, fun h => ?_⟩
    rcases h with h | ⟨_, ha, h⟩
    · cases h
    · cases ha; exact h

theorem mapM_cons_eq_ok {f : α → Except ε β} {x : α} {xs : List α} {ys : List β} :
    (x :: xs).mapM f = .ok ys ↔ ∃ y rest, f x = .ok y ∧ xs.mapM f = .ok rest ∧ ys = y :: rest := by
  rw [List.mapM_cons, bind_eq_ok]
  constructor
  · rintro ⟨y, hy, h⟩
    obtain ⟨rest, hr, h⟩ := bind_eq_ok.1 h
    cases h; exact ⟨y, rest, hy, hr, rfl⟩
  · rintro ⟨y, rest, hy, hr, rfl⟩
    exact ⟨y, hy, bind_eq_ok.2 ⟨rest, hr, rfl⟩⟩

/-- A traversal of which no step fails. -/
theorem mapM_ok {f : α → Except ε β} : ∀ {l : List α}, (∀ a ∈ l, ∃ b, f a = .ok b) →
    ∃ bs, l.mapM f = .ok bs
  | [], _ => ⟨[], rfl⟩
  | a :: l, h => by
    obtain ⟨b, hb⟩ := h a List.mem_cons_self
    obtain ⟨bs, hbs⟩ := mapM_ok fun a' ha => h a' (List.mem_cons_of_mem a ha)
    exact ⟨b :: bs, mapM_cons_eq_ok.2 ⟨b, bs, hb, hbs, rfl⟩⟩

/-- A traversal of which no step fails, with its results. -/
theorem mapM_eq_map {f : α → Except ε β} {g : α → β} : ∀ {l : List α},
    (∀ a ∈ l, f a = .ok (g a)) → l.mapM f = .ok (l.map g)
  | [], _ => rfl
  | a :: l, h => by
    have ih := mapM_eq_map fun a' ha => h a' (List.mem_cons_of_mem a ha)
    exact mapM_cons_eq_ok.2 ⟨g a, l.map g, h a List.mem_cons_self, ih, rfl⟩

/-- A traversal fails with the error of its first failing step. -/
theorem mapM_eq_error_split {f : α → Except ε β} {e : ε} : ∀ {l : List α},
    l.mapM f = .error e → ∃ front a back, l = front ++ a :: back ∧
      (∀ b ∈ front, ∃ y, f b = .ok y) ∧ f a = .error e
  | [], h => by cases h
  | a :: l, h => by
    rw [List.mapM_cons, bind_eq_error] at h
    rcases h with h | ⟨b, hb, h⟩
    · exact ⟨[], a, l, rfl, nofun, h⟩
    · rcases bind_eq_error.1 h with h | ⟨bs, -, h⟩
      · obtain ⟨front, a', back, rfl, hfront, ha'⟩ := mapM_eq_error_split h
        refine ⟨a :: front, a', back, rfl, ?_, ha'⟩
        intro c hc
        rcases List.mem_cons.1 hc with rfl | hc
        · exact ⟨b, hb⟩
        · exact hfront c hc
      · cases h

/-- A traversal fails with the error of one of its steps. -/
theorem mapM_eq_error {f : α → Except ε β} {e : ε} {l : List α} (h : l.mapM f = .error e) :
    ∃ a ∈ l, f a = .error e := by
  obtain ⟨front, a, back, rfl, -, ha⟩ := mapM_eq_error_split h
  exact ⟨a, List.mem_append_right front List.mem_cons_self, ha⟩

/-- Every step of a traversal that gives a list of results has one of them. -/
theorem exists_mem_of_mapM {f : α → Except ε β} {a : α} : ∀ {l : List α} {bs : List β},
    l.mapM f = .ok bs → a ∈ l → ∃ b ∈ bs, f a = .ok b
  | a' :: l, bs, h, ha => by
    obtain ⟨b, bs, hb, hbs, rfl⟩ := mapM_cons_eq_ok.1 h
    rcases List.mem_cons.1 ha with rfl | ha
    · exact ⟨b, List.mem_cons_self, hb⟩
    · obtain ⟨b', hb', hf⟩ := exists_mem_of_mapM hbs ha
      exact ⟨b', List.mem_cons_of_mem b hb', hf⟩

/-- **A traversal of which each step is decided** by a property of the member: all members have
    it, or the traversal fails as one of its steps does. -/
theorem mapM_cases {f : α → Except ε β} {P : α → Prop} {Q : ε → Prop} {l : List α}
    (h : ∀ a ∈ l, (P a ∧ ∃ b, f a = .ok b) ∨ (¬ P a ∧ ∃ e, f a = .error e ∧ Q e)) :
    ((∀ a ∈ l, P a) ∧ ∃ bs, l.mapM f = .ok bs) ∨
    ((¬ ∀ a ∈ l, P a) ∧ ∃ e, l.mapM f = .error e ∧ Q e) := by
  cases hm : l.mapM f with
  | ok bs =>
    refine .inl ⟨fun a ha => ?_, bs, rfl⟩
    obtain ⟨b, -, hb⟩ := exists_mem_of_mapM hm ha
    rcases h a ha with ⟨hP, -⟩ | ⟨-, e, he, -⟩
    · exact hP
    · cases he.symm.trans hb
  | error e =>
    obtain ⟨a, ha, he⟩ := mapM_eq_error hm
    rcases h a ha with ⟨-, b, hb⟩ | ⟨hP, e', he', hQ⟩
    · cases hb.symm.trans he
    · cases he'.symm.trans he
      exact .inr ⟨fun hall => hP (hall a ha), e, rfl, hQ⟩

/-- A traversal with a failing step, where no step fails in another way. -/
theorem mapM_eq_error_of_mem {f : α → Except ε β} {l : List α} {e : ε}
    (h : ∀ a ∈ l, ∀ e', f a = .error e' → e' = e) (hf : ∃ a ∈ l, f a = .error e) :
    l.mapM f = .error e := by
  cases hm : l.mapM f with
  | error e' =>
    obtain ⟨a, ha, he⟩ := mapM_eq_error hm
    rw [h a ha e' he]
  | ok bs =>
    obtain ⟨a, ha, he⟩ := hf
    obtain ⟨b, -, hb⟩ := exists_mem_of_mapM hm ha
    cases he.symm.trans hb

/-- Every result of a traversal comes from one of its steps. -/
theorem exists_of_mem_mapM {f : α → Except ε β} {y : β} : ∀ {l : List α} {ys : List β},
    l.mapM f = .ok ys → y ∈ ys → ∃ a ∈ l, f a = .ok y
  | [], ys, h, hy => by cases h; cases hy
  | a :: l, ys, h, hy => by
    obtain ⟨b, bs, hb, hbs, rfl⟩ := mapM_cons_eq_ok.1 h
    rcases List.mem_cons.1 hy with rfl | hy
    · exact ⟨a, List.mem_cons_self, hb⟩
    · obtain ⟨a', ha, hf⟩ := exists_of_mem_mapM hbs hy
      exact ⟨a', List.mem_cons_of_mem a ha, hf⟩

/-- The results of a traversal at the places of its steps. -/
theorem getElem?_of_mapM {f : α → Except ε β} : ∀ {l : List α} {bs : List β} {i : Nat} {a : α},
    l.mapM f = .ok bs → l[i]? = some a → ∃ b, bs[i]? = some b ∧ f a = .ok b
  | a' :: l, bs, i, a, h, hi => by
    obtain ⟨b, bs, hb, hbs, rfl⟩ := mapM_cons_eq_ok.1 h
    cases i with
    | zero => cases hi; exact ⟨b, rfl, hb⟩
    | succ i =>
      rw [List.getElem?_cons_succ] at hi
      have ih := getElem?_of_mapM hbs hi
      rw [List.getElem?_cons_succ]; exact ih

/-- What is read off the results of a traversal, as read off the origins. -/
theorem map_of_mapM {f : α → Except ε β} {g : β → γ} {h : α → γ} :
    ∀ {l : List α} {bs : List β}, (∀ a ∈ l, ∀ b, f a = .ok b → g b = h a) →
      l.mapM f = .ok bs → bs.map g = l.map h
  | [], bs, _, hl => by cases hl; rfl
  | a :: l, bs, hfg, hl => by
    obtain ⟨b, bs, hb, hbs, rfl⟩ := mapM_cons_eq_ok.1 hl
    have ih := map_of_mapM (fun a' ha => hfg a' (List.mem_cons_of_mem a ha)) hbs
    rw [List.map_cons, List.map_cons, hfg a List.mem_cons_self b hb, ih]

/-- A traversal has as many results as steps. -/
theorem length_of_mapM {f : α → Except ε β} {l : List α} {bs : List β} (h : l.mapM f = .ok bs) :
    bs.length = l.length := by
  have hunits := map_of_mapM (g := fun _ => ()) (h := fun _ => ()) (fun _ _ _ _ => rfl) h
  simpa using congrArg List.length hunits

/-- The results of a traversal, split at one of them. -/
theorem mapM_eq_ok_append_cons {f : α → Except ε β} : ∀ {ys : List β} {l : List α} {y : β}
    {zs : List β}, l.mapM f = .ok (ys ++ y :: zs) →
    ∃ xs x ws, l = xs ++ x :: ws ∧ xs.mapM f = .ok ys ∧ f x = .ok y
  | ys, [], y, zs, h => by cases ys <;> cases h
  | [], x :: l, y, zs, h => by
    obtain ⟨_, rest, hy, -, hl⟩ := mapM_cons_eq_ok.1 h
    cases hl
    exact ⟨[], x, l, rfl, rfl, hy⟩
  | y' :: ys, x :: l, y, zs, h => by
    obtain ⟨_, rest, hy, hr, hl⟩ := mapM_cons_eq_ok.1 h
    cases hl
    obtain ⟨xs, x', ws, rfl, hxs, hx⟩ := mapM_eq_ok_append_cons hr
    exact ⟨x :: xs, x', ws, rfl, mapM_cons_eq_ok.2 ⟨y', ys, hy, hxs, rfl⟩, hx⟩

/-- The results of a traversal on either side of a member. -/
theorem mapM_append_cons_eq_ok {f : α → Except ε β} {xs ws : List α} {x : α}
    {bs : List β} (h : (xs ++ x :: ws).mapM f = .ok bs) :
    ∃ ys y zs, bs = ys ++ y :: zs ∧ xs.mapM f = .ok ys ∧ f x = .ok y := by
  rw [List.mapM_append] at h
  obtain ⟨ys, hys, h⟩ := bind_eq_ok.1 h
  obtain ⟨rest, hrest, h⟩ := bind_eq_ok.1 h
  obtain ⟨y, zs, hy, -, rfl⟩ := mapM_cons_eq_ok.1 hrest
  cases h
  exact ⟨ys, y, zs, rfl, hys, hy⟩

/-- Two traversals that differ in how they word their errors. -/
theorem mapM_mapError {ε' : Type} {f : α → Except ε β} {g : α → Except ε' β} {w : ε → ε'} :
    ∀ {l : List α}, (∀ a ∈ l, g a = (f a).mapError w) → l.mapM g = (l.mapM f).mapError w
  | [], _ => rfl
  | a :: l, h => by
    have ih := mapM_mapError fun a' ha => h a' (List.mem_cons_of_mem a ha)
    rw [List.mapM_cons, List.mapM_cons, h a List.mem_cons_self, ih]
    cases f a with
    | error e => rfl
    | ok b => cases l.mapM f <;> rfl

/-- **A traversal of the results of a traversal**, as one traversal of the origins. -/
theorem mapM_of_mapM {f : α → Except ε β} {g : β → Except ε γ} {h : α → Except ε γ}
    (hfg : ∀ a b, f a = .ok b → g b = h a) :
    ∀ {xs : List α} {ys : List β}, xs.mapM f = .ok ys → ys.mapM g = xs.mapM h
  | [], ys, hx => by cases hx; rfl
  | x :: xs, ys, hx => by
    obtain ⟨y, rest, hy, hr, rfl⟩ := mapM_cons_eq_ok.1 hx
    rw [List.mapM_cons, List.mapM_cons, hfg x y hy, mapM_of_mapM hfg hr]

/-- Checks one after the other, none of which fails. -/
theorem forM_eq_ok {f : α → Except ε Unit} : ∀ {l : List α},
    l.forM f = .ok () ↔ ∀ a ∈ l, f a = .ok ()
  | [] => iff_of_true rfl nofun
  | a :: l => by
    change (f a >>= fun _ => l.forM f) = _ ↔ _
    rw [bind_eq_ok, List.forall_mem_cons, ← forM_eq_ok (l := l)]
    exact ⟨fun ⟨_, ha, hl⟩ => ⟨ha, hl⟩, fun ⟨ha, hl⟩ => ⟨(), ha, hl⟩⟩

/-- Checks one after the other fail with the error of the first one that fails. -/
theorem forM_eq_error {f : α → Except ε Unit} {e : ε} : ∀ {l : List α},
    l.forM f = .error e → ∃ front a back, l = front ++ a :: back ∧
      (∀ b ∈ front, f b = .ok ()) ∧ f a = .error e
  | [], h => by cases h
  | a :: l, h => by
    change (f a >>= fun _ => l.forM f) = _ at h
    rcases bind_eq_error.1 h with h | ⟨_, ha, h⟩
    · exact ⟨[], a, l, rfl, nofun, h⟩
    · obtain ⟨front, a', back, rfl, hfront, ha'⟩ := forM_eq_error h
      refine ⟨a :: front, a', back, rfl, ?_, ha'⟩
      exact List.forall_mem_cons.2 ⟨ha, hfront⟩

/-- The results of computations of which none fails. -/
theorem map_ok_filterMap_toOption {f : α → Except ε β} : ∀ {l : List α},
    (∀ a ∈ l, ∃ b, f a = .ok b) → (l.filterMap fun a => (f a).toOption).map .ok = l.map f
  | [], _ => rfl
  | a :: l, h => by
    obtain ⟨b, hb⟩ := h a List.mem_cons_self
    have ih := map_ok_filterMap_toOption fun a' ha => h a' (List.mem_cons_of_mem a ha)
    rw [List.filterMap_cons, List.map_cons, hb, ← ih]; rfl

end Gibbs
