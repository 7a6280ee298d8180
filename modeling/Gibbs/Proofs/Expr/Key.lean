/-
  Keys are read off their texts.

  Between square brackets stands a key, or the parts of a tuple with commas between them.  A
  tuple of one part looks like the part alone, so a tuple with another number of parts is the
  readable kind.

  * `Key.isReadable`: integers, slices, the ellipsis, new axes, and tuples of these;
  * `readPart_partText`: a part is read off its text;
  * `readKey_bracketText`: so is a key;
  * `not_mem_bracketText`: which characters the text of a key does not have.
-/
import Gibbs.Expr.Render
import Gibbs.Proofs.Text

namespace Gibbs

/-! ## Readable keys -/

namespace Key

/-- Whether a key is an integer, a slice, the ellipsis or a new axis. -/
def isPart : Key → Bool
  | int _ | slice _ _ _ | ellipsis | newAxis => true
  | _ => false

/-- Whether a key is such a part or a tuple of parts, but not of a single one. -/
def isReadable : Key → Bool
  | tuple ks => ks.all isPart && ks.length != 1
  | k => k.isPart

end Key

/-! ## Reading parts -/

/-- The bound of a slice that a text shows. -/
def readBound : List Char → Option Int
  | [] => none
  | s => some (readInt s)

theorem readBound_boundText (b : Option Int) : readBound (boundText b).toList = b := by
  cases b with
  | none => rfl
  | some i =>
    rw [boundText]
    unfold readBound
    split
    · next h => exact absurd h (toList_toString_ne_nil i)
    · rw [readInt_toString]

/-- The part of a key that a text shows. -/
def readPart (s : List Char) : Option Key :=
  match s.splitOn ':' with
  | [p] =>
    if p = "...".toList then some .ellipsis
    else if p = "None".toList then some .newAxis
    else some (.int (readInt p))
  | [a, b] => some (.slice (readBound a) (readBound b) none)
  | [a, b, c] => some (.slice (readBound a) (readBound b) (some (readInt c)))
  | _ => none

section
variable {c : Char}

theorem not_mem_boundText (hd : c.isDigit = false) (hc : c ≠ '-') (b : Option Int) :
    c ∉ (boundText b).toList := by
  cases b with
  | none => exact List.not_mem_nil
  | some i => exact not_mem_toString hd hc i

/-- The characters in the text of a part: letters and digits, and a few signs. -/
theorem not_mem_partText (ha : c.isAlphanum = false) (hc : c ∉ "-:.".toList) {k : Key}
    (hk : k.isPart = true) : c ∉ k.partText.toList := by
  have hd : c.isDigit = false := by
    rw [Char.isAlphanum, Bool.or_eq_false_iff] at ha
    exact ha.2
  have hminus : c ≠ '-' := fun h => hc (h ▸ by decide)
  have hcolon : c ∉ ":".toList := fun h => hc (List.mem_singleton.1 h ▸ by decide)
  cases k with
  | int i => exact not_mem_toString hd hminus i
  | slice a b d =>
    have ha := not_mem_boundText hd hminus a
    have hb := not_mem_boundText hd hminus b
    cases d with
    | none => simpa [Key.partText, not_or] using ⟨ha, fun h => hcolon (h ▸ by decide), hb⟩
    | some i =>
      have hi := not_mem_toString hd hminus i
      simp only [Key.partText, String.toList_append, List.mem_append, not_or]
      exact ⟨⟨⟨ha, hcolon⟩, hb⟩, hcolon, hi⟩
  | ellipsis =>
    intro h
    have hdot : c = '.' := by simpa [Key.partText] using h
    exact hc (hdot ▸ by decide)
  | newAxis =>
    intro h
    have hletter : c = 'N' ∨ c = 'o' ∨ c = 'n' ∨ c = 'e' := by
      simpa [Key.partText, Key.written] using h
    rcases hletter with rfl | rfl | rfl | rfl <;> cases ha
  | _ => cases hk

end

/-- **A part is read off its text.** -/
theorem readPart_partText {k : Key} (hk : k.isPart = true) :
    readPart k.partText.toList = some k := by
  have hbound := fun b => not_mem_boundText (c := ':') (by decide) (by decide) b
  have hint := fun i => not_mem_toString (c := ':') (by decide) (by decide) i
  cases k with
  | int i =>
    have hdots : (toString i).toList ≠ "...".toList := fun h =>
      not_mem_toString (c := '.') (by decide) (by decide) i (h ▸ by decide)
    have hnone : (toString i).toList ≠ "None".toList := fun h =>
      not_mem_toString (c := 'N') (by decide) (by decide) i (h ▸ by decide)
    change readPart (toString i).toList = _
    rw [readPart, splitOn_of_not_mem (hint i)]
    simp only [if_neg hdots, if_neg hnone, readInt_toString]
  | slice a b d =>
    cases d with
    | none =>
      have htext : (Key.slice a b none).partText.toList
          = [':'].intercalate [(boundText a).toList, (boundText b).toList] := by
        simp [Key.partText]
      rw [htext, readPart, List.splitOn_intercalate ':' (by simp [hbound]) (List.cons_ne_nil _ _)]
      simp only [readBound_boundText]
    | some i =>
      have htext : (Key.slice a b (some i)).partText.toList = [':'].intercalate
          [(boundText a).toList, (boundText b).toList, (toString i).toList] := by
        simp [Key.partText]
      rw [htext, readPart,
        List.splitOn_intercalate ':' (by simpa [hbound] using hint i) (List.cons_ne_nil _ _)]
      simp only [readBound_boundText, readInt_toString]
  | ellipsis => rfl
  | newAxis => rfl
  | _ => cases hk

theorem partText_ne_nil {k : Key} (hk : k.isPart = true) : k.partText.toList ≠ [] := by
  cases k with
  | int i => exact toList_toString_ne_nil i
  | slice a b d => simp [Key.partText]
  | ellipsis => simp [Key.partText]
  | newAxis => simp [Key.partText, Key.written]
  | _ => cases hk

/-! ## Reading keys -/

/-- The key that a text between square brackets shows. -/
def readKey (s : List Char) : Option Key :=
  if s = [] then some (.tuple [])
  else match s.splitOn ',' with
    | [p] => readPart p
    | ps => (ps.mapM fun p => readPart (p.filter (· != ' '))).map .tuple

theorem filter_partText {k : Key} (hk : k.isPart = true) :
    k.partText.toList.filter (· != ' ') = k.partText.toList := by
  refine List.filter_eq_self.2 fun c hc => bne_iff_ne.2 fun h => ?_
  exact not_mem_partText (by decide) (by decide) hk (h ▸ hc)

theorem readParts {ks : List Key} (h : ∀ k ∈ ks, k.isPart = true) :
    (ks.map fun k => ' ' :: k.partText.toList).mapM
      (fun p => readPart (p.filter (· != ' '))) = some ks := by
  induction ks with
  | nil => rfl
  | cons k ks ih =>
    obtain ⟨hk, hks⟩ := List.forall_mem_cons.1 h
    rw [List.map_cons, List.mapM_cons, List.filter_cons_of_neg (by decide), filter_partText hk,
      readPart_partText hk, ih hks]
    rfl

/-- A separator and a space between texts is a separator between texts with a space in front,
    except for the first one. -/
theorem intercalate_spaced (c : Char) (x : List Char) (xs : List (List Char)) :
    [c, ' '].intercalate (x :: xs) = [c].intercalate (x :: xs.map (' ' :: ·)) := by
  rw [intercalate_cons, intercalate_cons, List.flatMap_map]
  rfl

theorem toList_bracketText_tuple (k : Key) (ks : List Key) :
    (Key.tuple (k :: ks)).bracketText.toList
      = [','].intercalate (k.partText.toList :: ks.map fun k => ' ' :: k.partText.toList) := by
  rw [Key.bracketText, String.toList_intercalate, List.map_map, List.map_cons]
  have hspaced := intercalate_spaced ',' k.partText.toList (ks.map fun k => k.partText.toList)
  rw [List.map_map] at hspaced
  exact hspaced

theorem readKey_partText {k : Key} (hk : k.isPart = true) :
    readKey k.partText.toList = some k := by
  have hcomma : ',' ∉ k.partText.toList := not_mem_partText (by decide) (by decide) hk
  rw [readKey, if_neg (partText_ne_nil hk), splitOn_of_not_mem hcomma]
  exact readPart_partText hk

/-- **A key is read off its text.** -/
theorem readKey_bracketText {k : Key} (hk : k.isReadable = true) :
    readKey k.bracketText.toList = some k := by
  cases k with
  | tuple ks =>
    rw [Key.isReadable, Bool.and_eq_true, List.all_eq_true, bne_iff_ne] at hk
    obtain ⟨hall, hlength⟩ := hk
    match ks with
    | [] => rfl
    | [k] => exact absurd rfl hlength
    | k :: l :: ks =>
      obtain ⟨hk, hrest⟩ := List.forall_mem_cons.1 hall
      have hcomma : ∀ p ∈ k.partText.toList :: (l :: ks).map (fun k => ' ' :: k.partText.toList),
          ',' ∉ p := by
        have hpart := fun k hk => not_mem_partText (c := ',') (k := k) (by decide) (by decide) hk
        refine List.forall_mem_cons.2 ⟨hpart k hk, List.forall_mem_map.2 fun k hk => ?_⟩
        rw [List.mem_cons, not_or]
        exact ⟨by decide, hpart k (hrest k hk)⟩
      have hne : (Key.tuple (k :: l :: ks)).bracketText.toList ≠ [] := by
        rw [toList_bracketText_tuple]; simp
      have hparts := readParts hrest
      rw [List.map_cons, List.mapM_cons] at hparts
      rw [readKey, if_neg hne, toList_bracketText_tuple,
        List.splitOn_intercalate ',' hcomma (List.cons_ne_nil _ _)]
      simp only [List.map_cons, List.mapM_cons, filter_partText hk, readPart_partText hk, hparts]
      rfl
  | int i => exact readKey_partText hk
  | slice a b d => exact readKey_partText hk
  | ellipsis => exact readKey_partText hk
  | newAxis => exact readKey_partText hk
  | _ => cases hk

/-- The characters in the text of a key: those of its parts, commas and spaces. -/
theorem not_mem_bracketText {c : Char} (ha : c.isAlphanum = false) (hc : c ∉ "-:., ".toList)
    {k : Key} (hk : k.isReadable = true) : c ∉ k.bracketText.toList := by
  have hsigns : "-:., ".toList = "-:.".toList ++ ", ".toList := by simp
  rw [hsigns, List.mem_append, not_or] at hc
  have hpart : ∀ k : Key, k.isPart = true → c ∉ k.partText.toList := fun k hk =>
    not_mem_partText ha hc.1 hk
  cases k with
  | tuple ks =>
    rw [Key.isReadable, Bool.and_eq_true, List.all_eq_true] at hk
    rw [Key.bracketText, String.toList_intercalate, List.map_map]
    exact not_mem_intercalate hc.2 (List.forall_mem_map.2 fun k h => hpart k (hk.1 k h))
  | int i => exact hpart _ hk
  | slice a b d => exact hpart _ hk
  | ellipsis => exact hpart _ hk
  | newAxis => exact hpart _ hk
  | _ => cases hk

end Gibbs
