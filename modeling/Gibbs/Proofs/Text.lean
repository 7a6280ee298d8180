/-
  Words and integers in a text.

  * `Text.continuesIdentifier_of_opens`, `Text.isDigit_of_opens`: which characters stand where;
  * `word`: the word in front of a text; `word_append`: it ends where another character comes;
  * `readInt`, `readInt_toString`: an integer is read off its text;
  * `not_mem_toString`: an integer is written with digits and a minus sign.
-/
import Gibbs.Proofs.List
import Gibbs.Text.Identifier

namespace Gibbs

/-! ## Characters -/

theorem toNat_of_isDigit {c : Char} (h : c.isDigit = true) : 48 ≤ c.toNat ∧ c.toNat ≤ 57 := by
  simp only [Char.isDigit, Bool.and_eq_true, decide_eq_true_eq, ge_iff_le,
    UInt32.le_iff_toNat_le] at h
  exact h

theorem le_toNat_of_isAlpha {c : Char} (h : c.isAlpha = true) : 65 ≤ c.toNat := by
  have hcases : c.isUpper = true ∨ c.isLower = true := Bool.or_eq_true_iff.1 h
  rcases hcases with h | h
  · have hbounds : 'A'.val ≤ c.val ∧ c.val ≤ 'Z'.val := of_decide_eq_true h
    exact UInt32.le_iff_toNat_le.1 hbounds.1
  · have hbound : 'a'.val ≤ c.val := of_decide_eq_true (Bool.and_eq_true_iff.1 h).1
    have hlower : 97 ≤ c.toNat := UInt32.le_iff_toNat_le.1 hbound
    omega

namespace Text

theorem continuesIdentifier_of_isDigit {c : Char} (h : c.isDigit = true) :
    continuesIdentifier c = true := by
  have hc := toNat_of_isDigit h
  rw [continuesIdentifier, if_pos (by omega), Char.isAlphanum, h, Bool.or_true, Bool.true_or]

theorem continuesIdentifier_of_opens {c : Char} (h : opensIdentifier c = true) :
    continuesIdentifier c = true := by
  by_cases hc : c.toNat < 128
  · rw [opensIdentifier, if_pos hc, Bool.or_eq_true] at h
    rw [continuesIdentifier, if_pos hc, Bool.or_eq_true]
    exact h.imp_left fun h => by rw [Char.isAlphanum, h, Bool.true_or]
  · rw [opensIdentifier, if_neg hc] at h
    rw [continuesIdentifier, if_neg hc, h, Bool.true_or]

/-- **No digit opens an identifier.** -/
theorem isDigit_of_opens {c : Char} (h : opensIdentifier c = true) : c.isDigit = false := by
  rw [Bool.eq_false_iff]
  intro hd
  have hc := toNat_of_isDigit hd
  rw [opensIdentifier, if_pos (by omega), Bool.or_eq_true, beq_iff_eq] at h
  rcases h with h | rfl
  · have hc' := le_toNat_of_isAlpha h
    omega
  · cases hd

end Text

/-! ## Words -/

/-- The word in front of a text, and what comes after it. -/
def word (s : List Char) : List Char × List Char := s.span Text.continuesIdentifier

/-- A text behind a word, which begins with a character that no word has. -/
def EndsWord (s : List Char) : Prop := ∀ c t, s = c :: t → Text.continuesIdentifier c = false

theorem word_append {w s : List Char} (hw : w.all Text.continuesIdentifier = true)
    (hs : EndsWord s) : word (w ++ s) = (w, s) := span_append (List.all_eq_true.1 hw) hs

theorem EndsWord.cons {c : Char} (h : Text.continuesIdentifier c = false) (s : List Char) :
    EndsWord (c :: s) := by
  rintro _ _ ⟨⟩
  exact h

theorem EndsWord.append {w : List Char} {c : Char} (hw : w.head? = some c)
    (h : Text.continuesIdentifier c = false) (s : List Char) : EndsWord (w ++ s) := by
  obtain ⟨rest, rfl⟩ := List.head?_eq_some_iff.1 hw
  exact .cons h _

theorem Name.exists_cons (n : Name) : ∃ c rest, n.text.toList = c :: rest ∧
    Text.opensIdentifier c = true ∧ ∀ d ∈ rest, Text.continuesIdentifier d = true := by
  have h := n.isIdentifier_text
  unfold Text.isIdentifier at h
  cases hl : n.text.toList with
  | nil => rw [hl] at h; cases h
  | cons c rest =>
    rw [hl, Bool.and_eq_true, List.all_eq_true] at h
    exact ⟨c, rest, rfl, h⟩

theorem Name.all_continues (n : Name) : n.text.toList.all Text.continuesIdentifier = true := by
  obtain ⟨c, rest, hl, hc, hrest⟩ := n.exists_cons
  rw [hl, List.all_cons, Text.continuesIdentifier_of_opens hc, Bool.true_and]
  exact List.all_eq_true.2 hrest

/-! ## Integers -/

theorem not_mem_toDigits {c : Char} (hc : c.isDigit = false) (n : Nat) :
    c ∉ Nat.toDigits 10 n := by
  intro h
  have hdigit := Nat.isDigit_of_mem_toDigits (by decide) (by decide) h
  rw [hc] at hdigit; cases hdigit

theorem toList_toString_ofNat (n : Nat) : (toString (n : Int)).toList = Nat.toDigits 10 n :=
  Nat.toList_repr

theorem toList_toString_negSucc (n : Nat) :
    (toString (Int.negSucc n)).toList = '-' :: Nat.toDigits 10 (n + 1) := by
  have h : (toString (Int.negSucc n)).toList = ("-" ++ (n + 1).repr).toList := rfl
  rw [h, String.toList_append, Nat.toList_repr]; rfl

/-- The integer that a text of digits shows, with or without a minus sign. -/
def readInt : List Char → Int
  | '-' :: digits => -(Nat.ofDigitChars 10 digits 0 : Int)
  | digits => Nat.ofDigitChars 10 digits 0

theorem readInt_toDigits (n : Nat) : readInt (Nat.toDigits 10 n) = n := by
  unfold readInt
  split
  · next digits h =>
    exact absurd (h ▸ List.mem_cons_self) (not_mem_toDigits (by decide) n)
  · rw [Nat.ofDigitChars_ten_toDigits]

/-- **An integer is read off its text.** -/
theorem readInt_toString (i : Int) : readInt (toString i).toList = i := by
  cases i with
  | ofNat n => exact (congrArg readInt (toList_toString_ofNat n)).trans (readInt_toDigits n)
  | negSucc n =>
    rw [toList_toString_negSucc, readInt, Nat.ofDigitChars_ten_toDigits]; rfl

theorem toList_toString_ne_nil (i : Int) : (toString i).toList ≠ [] := by
  cases i with
  | ofNat n =>
    intro h
    exact Nat.toDigits_ne_nil ((toList_toString_ofNat n).symm.trans h)
  | negSucc n => rw [toList_toString_negSucc]; exact List.cons_ne_nil _ _

/-- **An integer is written** with digits and a minus sign. -/
theorem not_mem_toString {c : Char} (hd : c.isDigit = false) (hc : c ≠ '-') (i : Int) :
    c ∉ (toString i).toList := by
  cases i with
  | ofNat n =>
    intro h
    exact not_mem_toDigits hd n ((toList_toString_ofNat n) ▸ h)
  | negSucc n =>
    rw [toList_toString_negSucc, List.mem_cons, not_or]
    exact ⟨hc, not_mem_toDigits hd (n + 1)⟩

end Gibbs
