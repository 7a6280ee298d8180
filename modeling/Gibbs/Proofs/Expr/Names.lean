/-
  Names declared in one text.

  A single text may declare several names, with commas and blanks between them.  No character
  of a name separates names, so a text that is put together from names and gaps declares just
  these names, as the names do one by one; and what any text declares are its maximal runs of
  characters that do not separate.

  * `toNat_of_separates`, `countP_wideBlanks`: where the commas and blanks stand among the
    characters; `not_separates_of_continues`: none of them stands in a name;
  * `readNames_eq_ok`: texts are read as names if and only if they are names;
  * `readNames_text`: what a single text declares, with `spacedText` as an example.
-/
import Gibbs.Expr.Build
import Gibbs.Proofs.Except
import Gibbs.Proofs.Text
import Gibbs.Proofs.Text.Words

namespace Gibbs

open Text (ListsRuns slice spread)

/-! ## Commas and blanks -/

/-- The blanks outside ASCII. -/
def wideBlanks : List Nat :=
  [0x85, 0xA0, 0x1680, 0x2000, 0x2001, 0x2002, 0x2003, 0x2004, 0x2005, 0x2006, 0x2007, 0x2008,
    0x2009, 0x200A, 0x2028, 0x2029, 0x202F, 0x205F, 0x3000]

/-- The commas and blanks stand in front of all digits and letters, or outside ASCII. -/
theorem toNat_of_separates {c : Char} (h : separatesNames c = true) :
    c.toNat ≤ 44 ∨ c.toNat ∈ wideBlanks := by
  rcases Bool.or_eq_true_iff.1 h with h | h
  · rw [eq_of_beq h]
    exact .inl (Nat.le_refl 44)
  · simp only [Text.isBlank, Bool.or_eq_true, Bool.and_eq_true, decide_eq_true_eq, beq_iff_eq] at h
    rcases h with (((((((((h | h) | h) | h) | h) | h) | h) | h) | h) | h) | h
    · exact .inl (Nat.le_trans h.2 (by decide))
    · exact .inl (Nat.le_trans h.2 (by decide))
    all_goals right; simp only [wideBlanks, List.mem_cons, List.not_mem_nil, or_false]; omega

theorem Text.CharSet.contains_eq (s : CharSet) (c : Char) :
    s.contains c = (s.changes.countP (Nat.ble · c.toNat) % 2 == 1) := by
  have hle : ∀ k, decide (k ≤ c.toNat) = Nat.ble k c.toNat := fun k => by
    rw [Bool.eq_iff_iff, decide_eq_true_iff, Nat.ble_eq]
  simp only [contains, hle]

/-- The wide blanks are in neither table of identifier characters. -/
theorem countP_wideBlanks : ∀ n ∈ wideBlanks,
    (Text.xidStart.changes.countP (Nat.ble · n) % 2 == 1) = false ∧
      (Text.xidExtra.changes.countP (Nat.ble · n) % 2 == 1) = false := by
  decide +kernel

/-- **No comma and no blank** stands in an identifier. -/
theorem not_separates_of_continues {c : Char} (h : Text.continuesIdentifier c = true) :
    separatesNames c = false := by
  rw [Bool.eq_false_iff]
  intro hc
  rw [Text.continuesIdentifier] at h
  rcases toNat_of_separates hc with hle | hwide
  · rw [if_pos (by omega), Bool.or_eq_true, Char.isAlphanum, Bool.or_eq_true, beq_iff_eq] at h
    rcases h with (halpha | hdigit) | rfl
    · have := le_toNat_of_isAlpha halpha
      omega
    · have := toNat_of_isDigit hdigit
      omega
    · exact absurd hle (by decide)
  · have hbound : ∀ n ∈ wideBlanks, 128 ≤ n := by decide
    obtain ⟨hstart, hextra⟩ := countP_wideBlanks _ hwide
    rw [if_neg (Nat.not_lt.2 (hbound _ hwide)), Text.CharSet.contains_eq, Text.CharSet.contains_eq,
      hstart, hextra] at h
    cases h

theorem Name.not_separates (n : Name) : ∀ c ∈ n.text.toList, separatesNames c = false :=
  fun c hc => not_separates_of_continues (List.all_eq_true.1 n.all_continues c hc)

theorem Name.toList_ne_nil (n : Name) : n.text.toList ≠ [] := by
  obtain ⟨c, rest, h, -⟩ := n.exists_cons
  rw [h]
  exact List.cons_ne_nil c rest

/-! ## Reading names -/

theorem Name.text_of_ofText? {s : String} {n : Name} (h : Name.ofText? s = some n) :
    s = n.text := by
  unfold Name.ofText? at h
  split at h <;> cases h
  rfl

/-- **Texts are read as names** if and only if they are the texts of these names. -/
theorem readNames_eq_ok {texts : List String} {names : List Name} :
    readNames texts = .ok names ↔ nameTexts texts = names.map Name.text := by
  unfold readNames
  induction nameTexts texts generalizing names with
  | nil =>
    constructor
    · rintro ⟨⟩
      rfl
    · intro h
      obtain rfl := List.map_eq_nil_iff.1 h.symm
      rfl
  | cons s ss ih =>
    rw [mapM_cons_eq_ok]
    constructor
    · rintro ⟨n, rest, hn, hrest, rfl⟩
      cases hs : Name.ofText? s with
      | none => rw [hs] at hn; cases hn
      | some m =>
        rw [hs] at hn
        cases hn
        rw [List.map_cons, Name.text_of_ofText? hs, ih.1 hrest]
    · intro h
      obtain ⟨n, rest, rfl, hn, hrest⟩ := List.map_eq_cons_iff.1 h.symm
      exact ⟨n, rest, by rw [← hn, Name.ofText?_text], ih.2 hrest.symm, rfl⟩

/-- A single text is read as the names that are its words. -/
theorem readNames_single {text : String} {names : List Name} :
    readNames [text] = .ok names ↔
      names.map (fun n => n.text.toList) = Text.words separatesNames text.toList := by
  rw [readNames_eq_ok, nameTexts]
  constructor
  · intro h
    have hlists := congrArg (List.map String.toList) h
    simpa [Function.comp_def] using hlists.symm
  · intro h
    rw [← h]
    simp [Function.comp_def]

/-- Names are read one by one. -/
theorem readNames_names {names : List Name} : readNames (names.map Name.text) = .ok names := by
  rcases names with _ | ⟨n, _ | ⟨m, names⟩⟩
  · exact readNames_eq_ok.2 rfl
  · -- a single name is split like any other text, and is its own word
    have hparts : ∀ p ∈ [(n.text.toList, ([] : List Char))],
        p.1 ≠ [] ∧ ∀ c ∈ p.1, separatesNames c = false :=
      List.forall_mem_singleton.2 ⟨n.toList_ne_nil, n.not_separates⟩
    have hword := @Text.words_spread separatesNames [] _ nofun hparts (by simp) nofun
    refine readNames_single.2 ?_
    simpa [spread] using hword.symm
  · exact readNames_eq_ok.2 rfl

/-- **Names in one text.**  A text that consists of names in order, with commas and blanks
    between them and possibly in front and behind, declares these names, as they do one by
    one.  What any single text declares are its maximal runs of characters that are neither
    commas nor blanks, from left to right, if all of them are names. -/
theorem readNames_text :
    (∀ (lead : List Char) (parts : List (Name × List Char)) (text : String),
      text.toList = lead ++ parts.flatMap (fun p => p.1.text.toList ++ p.2) →
      (∀ c ∈ lead, separatesNames c = true) →
      (∀ p ∈ parts, ∀ c ∈ p.2, separatesNames c = true) →
      (∀ p ∈ parts.dropLast, p.2 ≠ []) →
      readNames [text] = .ok (parts.map Prod.fst) ∧
      readNames (parts.map fun p => p.1.text) = .ok (parts.map Prod.fst)) ∧
    ∀ text : String, ∃ runs, ListsRuns separatesNames text.toList runs ∧
      ∀ names, readNames [text] = .ok names ↔
        names.map (fun n => n.text.toList) = runs.map (slice text.toList) := by
  constructor
  · intro lead parts text htext hlead hgaps hinner
    have hspread : text.toList = spread lead (parts.map fun p => (p.1.text.toList, p.2)) := by
      rw [htext, spread, List.flatMap_map]
    have hnames : ∀ q ∈ parts.map fun p => (p.1.text.toList, p.2),
        q.1 ≠ [] ∧ ∀ c ∈ q.1, separatesNames c = false :=
      List.forall_mem_map.2 fun p _ => ⟨p.1.toList_ne_nil, p.1.not_separates⟩
    have hwords := Text.words_spread hlead hnames (List.forall_mem_map.2 hgaps)
      (by rw [← List.map_dropLast]; exact List.forall_mem_map.2 hinner)
    refine ⟨readNames_single.2 ?_, ?_⟩
    · rw [hspread, hwords, List.map_map, List.map_map]
      rfl
    · have hone := @readNames_names (parts.map Prod.fst)
      rwa [List.map_map] at hone
  · intro text
    obtain ⟨runs, hruns, hwords⟩ := Text.words_eq_runs separatesNames text.toList
    exact ⟨runs, hruns, fun names => by rw [readNames_single, hwords]⟩

/-- A text with a wide space in front, a comma between blanks, a line end, and a comma behind. -/
def spacedText : String := "\u2003x ,\u3000y_1\nz,"

theorem spacedText_names : ∃ x y z : Name,
    x.text = "x" ∧ y.text = "y_1" ∧ z.text = "z" ∧
    spacedText.toList = ['\u2003'] ++ [(x, [' ', ',', '\u3000']), (y, ['\n']), (z, [','])].flatMap
      (fun p => p.1.text.toList ++ p.2) ∧
    readNames [spacedText] = .ok [x, y, z] ∧ readNames ["x", "y_1", "z"] = .ok [x, y, z] := by
  let x : Name := ⟨"x", by decide⟩
  let y : Name := ⟨"y_1", by decide⟩
  let z : Name := ⟨"z", by decide⟩
  let parts := [(x, [' ', ',', '\u3000']), (y, ['\n']), (z, [','])]
  have htext : spacedText.toList = ['\u2003'] ++ parts.flatMap
      (fun p => p.1.text.toList ++ p.2) := by decide
  have hlead : ∀ c ∈ ['\u2003'], separatesNames c = true := List.forall_mem_singleton.2 rfl
  have hgaps : ∀ p ∈ parts, p.2.all separatesNames = true := by decide
  obtain ⟨hsingle, hseveral⟩ := readNames_text.1 ['\u2003'] parts spacedText htext hlead
    (fun p hp => List.all_eq_true.1 (hgaps p hp)) (by decide)
  exact ⟨x, y, z, rfl, rfl, rfl, htext, hsingle, hseveral⟩

end Gibbs
