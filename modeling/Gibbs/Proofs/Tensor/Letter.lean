/-
  Kinds of one letter.

  Kinds of one letter differ in their width alone.  The common kind of arrays whose kinds
  have one letter is the widest of these kinds, so neither the order of the arrays nor a
  grouping of them matters, and a cell reaches it in one conversion or in several.

  * `Kind.Fits`: a kind of the same letter and of no greater width;
  * `IsWidest`: a kind among others that all others fit; it is unique;
  * `isWidest_foldl`, `IsWidest.flatMap`: the common kind of several ones, and that of groups;
  * `convert_convert`: converting twice is converting once.
-/
import Gibbs.Tensor.Kind

namespace Gibbs

namespace Kind

/-! ## Widths -/

/-- The width of a kind: bits of a number, or the length of a text. -/
def width : Kind → Nat
  | .int .byte => 8
  | .float .half => 16
  | .int _ | .float _ => 64
  | .text w => w
  | _ => 0

/-- **Letter and width** determine a kind. -/
theorem ext_letter : ∀ {k l : Kind}, k.letter = l.letter → k.width = l.width → k = l := by
  rintro (_ | (_ | _ | _) | (_ | _) | v | _) (_ | (_ | _ | _) | (_ | _) | w | _) h hw
  all_goals simp_all [letter, width]

/-- Cells of the one kind fit the other: it has the same letter and no smaller width. -/
structure Fits (k l : Kind) : Prop where
  letter : k.letter = l.letter
  width : k.width ≤ l.width

variable {k l m : Kind} {ks : List Kind}

theorem Fits.rfl : Fits k k := ⟨Eq.refl _, Nat.le_refl _⟩

theorem Fits.trans (h : Fits k l) (h' : Fits l m) : Fits k m :=
  ⟨h.letter.trans h'.letter, Nat.le_trans h.width h'.width⟩

theorem Fits.antisymm (h : Fits k l) (h' : Fits l k) : k = l :=
  ext_letter h.letter (Nat.le_antisymm h.width h'.width)

/-- **Kinds of one letter** meet in the wider of the two. -/
theorem join_of_letter : ∀ {k l : Kind}, k.letter = l.letter →
    (k.join l).letter = k.letter ∧ (k.join l).width = max k.width l.width := by
  rintro (_ | (_ | _ | _) | (_ | _) | v | _) (_ | (_ | _ | _) | (_ | _) | w | _) h
  all_goals simp_all [letter, width, join, textWidth]

theorem fits_join_left (h : k.letter = l.letter) : Fits k (k.join l) := by
  obtain ⟨hletter, hwidth⟩ := join_of_letter h
  exact ⟨hletter.symm, by rw [hwidth]; exact Nat.le_max_left _ _⟩

theorem fits_join_right (h : k.letter = l.letter) : Fits l (k.join l) := by
  obtain ⟨hletter, hwidth⟩ := join_of_letter h
  exact ⟨h.symm.trans hletter.symm, by rw [hwidth]; exact Nat.le_max_right _ _⟩

/-- The kind in which two of one letter meet is one of them. -/
theorem join_eq_or_eq (h : k.letter = l.letter) : k.join l = k ∨ k.join l = l := by
  obtain ⟨hletter, hwidth⟩ := join_of_letter h
  rcases Nat.le_total k.width l.width with hle | hle
  · exact .inr (ext_letter (hletter.trans h) (by rw [hwidth, Nat.max_eq_right hle]))
  · exact .inl (ext_letter hletter (by rw [hwidth, Nat.max_eq_left hle]))

/-! ## The widest of several kinds -/

/-- A kind among others that all of them fit. -/
structure IsWidest (k : Kind) (ks : List Kind) : Prop where
  mem : k ∈ ks
  fits : ∀ l ∈ ks, Fits l k

theorem IsWidest.eq (h : IsWidest k ks) (h' : IsWidest l ks) : k = l :=
  (h'.fits k h.mem).antisymm (h.fits l h'.mem)

/-- The kind in which several of one letter meet, one after the other. -/
theorem isWidest_foldl : ∀ {ks : List Kind} {k : Kind}, (∀ l ∈ ks, l.letter = k.letter) →
    IsWidest (ks.foldl join k) (k :: ks)
  | [], k, _ => ⟨List.mem_cons_self, fun l hl => by
      rw [List.mem_singleton.1 hl]; exact Fits.rfl⟩
  | l :: ks, k, h => by
    obtain ⟨hl, hks⟩ := List.forall_mem_cons.1 h
    have hletter : (k.join l).letter = k.letter := (join_of_letter hl.symm).1
    have ih : IsWidest (ks.foldl join (k.join l)) (k.join l :: ks) :=
      isWidest_foldl fun l' hl' => (hks l' hl').trans hletter.symm
    rw [List.foldl_cons]
    constructor
    · rcases List.mem_cons.1 ih.mem with heq | hmem
      · rw [heq]
        rcases join_eq_or_eq hl.symm with hk | hk <;> rw [hk] <;> simp
      · exact List.mem_cons_of_mem k (List.mem_cons_of_mem l hmem)
    · intro l' hl'
      rcases List.mem_cons.1 hl' with rfl | hl'
      · exact (fits_join_left hl.symm).trans (ih.fits _ List.mem_cons_self)
      · rcases List.mem_cons.1 hl' with rfl | hl'
        · exact (fits_join_right hl.symm).trans (ih.fits _ List.mem_cons_self)
        · exact ih.fits l' (List.mem_cons_of_mem _ hl')

/-- **The widest kind of groups** is the widest of all. -/
theorem IsWidest.flatMap {α : Type} {l : List α} {f : α → Kind} {g : α → List Kind}
    (h : ∀ a ∈ l, IsWidest (f a) (g a)) (hk : IsWidest k (l.map f)) : IsWidest k (l.flatMap g) := by
  constructor
  · obtain ⟨a, ha, rfl⟩ := List.mem_map.1 hk.mem
    exact List.mem_flatMap.2 ⟨a, ha, (h a ha).mem⟩
  · intro k' hk'
    obtain ⟨a, ha, hmem⟩ := List.mem_flatMap.1 hk'
    exact ((h a ha).fits k' hmem).trans (hk.fits (f a) (List.mem_map_of_mem ha))

/-! ## Conversions -/

/-- The kinds that fit another one. -/
theorem Fits.cases : ∀ {k l : Kind}, Fits k l → k = l ∨ (k = .int .byte ∧ l = .int .word) ∨
    (k = .float .half ∧ l = .float .double) ∨ ∃ v w, k = .text v ∧ l = .text w := by
  rintro (_ | (_ | _ | _) | (_ | _) | v | _) (_ | (_ | _ | _) | (_ | _) | w | _) ⟨h, hw⟩
  all_goals simp_all [Kind.letter, Kind.width]

/-- A text stays what it is. -/
theorem convert_text (v w : Nat) (s : String) :
    convert (.text v) (.text w) s = (s : (text w).Carrier) := by
  by_cases h : v = w
  · subst h
    exact convert_self (.text v) s
  · have hne : Kind.text v ≠ .text w := fun heq => h (Kind.text.inj heq)
    simp only [convert, dif_neg hne]
    rfl

/-- **Converting twice** to wider kinds of one letter is converting once. -/
theorem convert_convert {k l m : Kind} (h : Fits k l) (h' : Fits l m) (a : k.Carrier) :
    convert l m (convert k l a) = convert k m a := by
  rcases h.cases with rfl | ⟨rfl, rfl⟩ | ⟨rfl, rfl⟩ | ⟨u, v, rfl, rfl⟩
  · rw [convert_self]
  · rcases h'.cases with rfl | ⟨hl, -⟩ | ⟨hl, -⟩ | ⟨_, _, hl, -⟩
    · rw [convert_self]
    all_goals cases hl
  · rcases h'.cases with rfl | ⟨hl, -⟩ | ⟨hl, -⟩ | ⟨_, _, hl, -⟩
    · rw [convert_self]
    all_goals cases hl
  · rcases h'.cases with rfl | ⟨hl, -⟩ | ⟨hl, -⟩ | ⟨_, w, -, rfl⟩
    · rw [convert_self]
    · cases hl
    · cases hl
    · exact (convert_text v w _).trans ((convert_text u v a).trans (convert_text u w a).symm)

end Kind

end Gibbs
