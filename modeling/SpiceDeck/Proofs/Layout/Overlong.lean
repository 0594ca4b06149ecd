import SpiceDeck.Proofs.Layout.Fewest
import SpiceDeck.Proofs.Layout.Wrapping

/-!
# Lines wider than the width

Wrapping adds up words against what the indent leaves of the width. A finished line is measured as a
whole. Without escape sequences both come to the same, and a line is too wide just when it holds one
word that is too wide behind its indent (`countP_overlong`).
-/

namespace SpiceDeck

open Text

theorem columns_joinWords {ws : List Text} (h : ∀ w ∈ ws, escapeSign ∉ w) :
    columns (joinWords ws) = lineColumns ws := by
  induction ws with
  | nil => rfl
  | cons w ws ih =>
    have hw := h w (List.mem_cons_self ..)
    have ih := ih fun v hv => h v (List.mem_cons_of_mem _ hv)
    cases ws with
    | nil => simp [lineColumns]
    | cons v ws =>
      have hspace : columns (' ' :: joinWords (v :: ws)) = 1 + columns (joinWords (v :: ws)) :=
        columns_cons (by decide) _
      rw [joinWords_cons w (by simp), columns_append hw, hspace, ih]
      simp [lineColumns]
      omega

theorem columns_continuationLine (m : Marker) {ws : List Text} (h : ∀ w ∈ ws, escapeSign ∉ w) :
    columns (continuationLine m ws) = columns m.indent + lineColumns ws := by
  have hm : escapeSign ∉ m.indent := by
    cases m <;> decide
  rw [continuationLine, columns_append hm, columns_joinWords h]

/-! ## One line -/

section
variable {width indent : Nat} {line : List Text}

theorem columns_le_lineColumns {w : Text} (h : w ∈ line) : columns w ≤ lineColumns line := by
  have hs := spread_eq (List.ne_nil_of_mem h)
  obtain ⟨before, behind, rfl⟩ := List.append_of_mem h
  simp only [spread_append, spread_cons] at hs
  omega

/-- Two words take a column at least, so where they are within the limit the indent leaves room. -/
theorem eq_singleton_of_wide (h : Admits (width - indent) line)
    (ho : width < indent + lineColumns line) : ∃ w, line = [w] := by
  apply List.length_eq_one_iff.mp
  have hpos := List.length_pos_iff.mpr h.ne_nil
  cases h.within with
  | inl h => exact h
  | inr h =>
    unfold lineColumns at h ho
    omega

/-- The words of a line that are too wide for it: the only one, if the line is too wide, else none. -/
theorem countP_wide (h : Admits (width - indent) line) :
    line.countP (fun w => width < indent + columns w) =
      if width < indent + lineColumns line then 1 else 0 := by
  by_cases ho : width < indent + lineColumns line
  · obtain ⟨w, rfl⟩ := eq_singleton_of_wide h ho
    have hw : lineColumns [w] = columns w := by simp [lineColumns]
    rw [hw] at ho ⊢
    simp [ho]
  · rw [if_neg ho, List.countP_eq_zero]
    intro w hw
    have := columns_le_lineColumns hw
    simp
    omega

theorem wide_iff_first {w : Text} {more : List Text} (h : Admits width (w :: more)) :
    width < lineColumns (w :: more) ↔ width < columns w := by
  constructor
  · intro ho
    obtain ⟨v, hv⟩ := @eq_singleton_of_wide width 0 _ h (by omega)
    obtain ⟨rfl, rfl⟩ := List.cons.inj hv
    simpa [lineColumns] using ho
  · intro ho
    exact Nat.lt_of_lt_of_le ho (columns_le_lineColumns (List.mem_cons_self ..))

end

/-! ## Wrapped statements -/

/-- The words of a statement that do not stand on its first line. -/
def laterWords (width : LineWidth) (s : Text) : List Text :=
  (words s).drop (words ((wrapStatement width s).headD [])).length

theorem Cut.laterWords_eq {width : LineWidth} {s : Text} (c : Cut s)
    (h : wrapStatement width s = c.head :: c.tail) : laterWords width s = c.later.flatten := by
  have hhead : words c.head = c.first :: c.more := words_joinWords c.isWord_head
  rw [laterWords, h, List.headD_cons, hhead, c.words_eq, ← List.cons_append, List.drop_left]

/-- How many lines of a statement are wider than the width: one if its first word is, and one for
each later word that is too wide behind the indent. -/
def wideWords (width : LineWidth) (s : Text) : Nat :=
  (if (words s).head?.any (fun w => width.columns < columns w) then 1 else 0) +
    (laterWords width s).countP fun w =>
      width.columns < columns (Marker.ofStatement s).indent + columns w

theorem countP_later {width : LineWidth} {m : Marker} {later : List (List Text)}
    (hesc : ∀ w ∈ later.flatten, escapeSign ∉ w)
    (h : ∀ ws ∈ later, Admits (width.columns - columns m.indent) ws) :
    (later.map (continuationLine m)).countP (Layout.wrapped width).overlong =
      later.flatten.countP fun w => width.columns < columns m.indent + columns w := by
  induction later with
  | nil => rfl
  | cons ws later ih =>
    rw [List.flatten_cons, List.forall_mem_append] at hesc
    have hl := h ws (List.mem_cons_self ..)
    have ih := ih hesc.2 fun vs hv => h vs (List.mem_cons_of_mem _ hv)
    rw [List.map_cons, List.countP_cons, ih, List.flatten_cons, List.countP_append, countP_wide hl,
      Layout.overlong, columns_continuationLine m hesc.1, Nat.add_comm]
    simp only [decide_eq_true_eq]

theorem Cut.not_mem_words {s : Text} (c : Cut s) (hesc : escapeSign ∉ s) :
    (∀ w ∈ c.first :: c.more, escapeSign ∉ w) ∧ ∀ w ∈ c.later.flatten, escapeSign ∉ w := by
  rw [← List.forall_mem_append, List.cons_append, ← c.words_eq]
  exact fun w hw hm => hesc (mem_of_mem_words hw hm)

section
variable {s : Text} (hesc : escapeSign ∉ s)
include hesc

/-- **Lines that are too wide**, counted on the lines or on the words. -/
theorem countP_overlong (width : LineWidth) :
    (wrapStatement width s).countP (Layout.wrapped width).overlong = wideWords width s := by
  by_cases hs : words s = []
  · simp [wideWords, laterWords, wrapStatement_nil hs, hs]
  obtain ⟨c, hc, hfit⟩ := exists_firstFit hs width
  obtain ⟨hadm, hlater⟩ := hfit.admitted
  obtain ⟨hw, hws⟩ := c.not_mem_words hesc
  have hhead : columns c.head = lineColumns (c.first :: c.more) := columns_joinWords hw
  rw [wideWords, c.laterWords_eq hc, hc, c.words_eq, List.countP_cons, Cut.tail,
    countP_later hws hlater, Layout.overlong, hhead, Nat.add_comm]
  simp [wide_iff_first hadm]

/-- A first line that is too wide is a word, and a later one is a word behind the indent. -/
theorem exists_wide_word (width : LineWidth) :
    (∀ l ∈ (wrapStatement width s).head?, width.columns < columns l → l ∈ words s) ∧
      ∀ l ∈ (wrapStatement width s).tail, width.columns < columns l →
        ∃ w ∈ words s, l = (Marker.ofStatement s).indent ++ w := by
  by_cases hs : words s = []
  · simp [wrapStatement_nil hs]
  obtain ⟨c, hc, hfit⟩ := exists_firstFit hs width
  obtain ⟨hadm, hlater⟩ := hfit.admitted
  obtain ⟨hw, hws⟩ := c.not_mem_words hesc
  rw [hc, c.words_eq]
  constructor
  · intro l hl ho
    obtain rfl : c.head = l := by simpa using hl
    rw [Cut.head, columns_joinWords hw] at ho
    obtain ⟨w, he⟩ := @eq_singleton_of_wide width.columns 0 _ hadm (by omega)
    obtain ⟨rfl, hm⟩ := List.cons.inj he
    rw [Cut.head, hm, joinWords_singleton]
    exact List.mem_cons_self ..
  · intro l hl ho
    obtain ⟨ws, hm, rfl⟩ := List.mem_map.mp hl
    have hesc' : ∀ w ∈ ws, escapeSign ∉ w := fun w hw => hws w (List.mem_flatten_of_mem hm hw)
    rw [columns_continuationLine _ hesc'] at ho
    obtain ⟨w, rfl⟩ := eq_singleton_of_wide (hlater ws hm) ho
    refine ⟨w, ?_, by rw [continuationLine, joinWords_singleton]⟩
    apply List.mem_cons_of_mem
    apply List.mem_append_right
    exact List.mem_flatten_of_mem hm (List.mem_singleton_self w)

end

end SpiceDeck
