import SpiceDeck.Proofs.Layout.Overlong

/-!
# A statement at two widths

The lines of a narrow width are within a wider one, so first fit at the wider width stays ahead of
them: its first line has at least the same words, and it needs no more lines. Fewer lines have fewer
indents, and a word that comes to stand on the first line needs none.
-/

namespace SpiceDeck

open Text Utf8

theorem length_encode_joinWords {ws : List Text} (h : ws ≠ []) :
    (encode (joinWords ws)).length + 1 = (ws.map fun w => (encode w).length + 1).sum := by
  induction ws with
  | nil => exact absurd rfl h
  | cons w ws ih =>
    cases ws with
    | nil => simp
    | cons v ws =>
      have hspace : (String.utf8EncodeChar ' ').length = 1 := by decide
      have ih := ih (List.cons_ne_nil v ws)
      rw [List.map_cons, List.sum_cons, ← ih, joinWords_cons w (List.cons_ne_nil v ws),
        encode_append, encode_cons, List.length_append, List.length_append, hspace]
      omega

theorem length_encode_ofLines_cons (l : Text) (ls : List Text) :
    (encode (ofLines (l :: ls))).length =
      (encode l).length + 1 + (encode (ofLines ls)).length := by
  have hnewline : (String.utf8EncodeChar '\n').length = 1 := by decide
  rw [ofLines_cons, encode_append, encode_cons, List.length_append, List.length_append, hnewline]
  omega

theorem length_encode_later (m : Marker) {later : List (List Text)} (h : ∀ ws ∈ later, ws ≠ []) :
    (encode (ofLines (later.map (continuationLine m)))).length =
      (later.flatten.map fun w => (encode w).length + 1).sum +
        later.length * (encode m.indent).length := by
  induction later with
  | nil => simp
  | cons ws later ih =>
    have hws := length_encode_joinWords (h ws (List.mem_cons_self ..))
    have ih := ih fun vs hv => h vs (List.mem_cons_of_mem _ hv)
    rw [List.map_cons, length_encode_ofLines_cons, ih, continuationLine, encode_append,
      List.length_append, List.flatten_cons, List.map_append, List.sum_append, ← hws,
      List.length_cons, Nat.add_mul]
    omega

section
variable {s : Text}

/-- Each word takes its bytes and one more, and each line but the first an indent. -/
theorem Cut.length_encode (c : Cut s) :
    (encode (ofLines (c.head :: c.tail))).length =
      ((words s).map fun w => (encode w).length + 1).sum +
        c.later.length * (encode (Marker.ofStatement s).indent).length := by
  have hhead : (encode c.head).length + 1 = _ :=
    length_encode_joinWords (List.cons_ne_nil c.first c.more)
  rw [length_encode_ofLines_cons, hhead, Cut.tail, length_encode_later _ c.ne_nil, c.words_eq,
    ← List.cons_append, List.map_append, List.sum_append]
  omega

section
variable {narrow wide : LineWidth} (h : narrow.columns ≤ wide.columns)
include h

theorem exists_widened (hs : words s ≠ []) :
    ∃ c d : Cut s, wrapStatement narrow s = c.head :: c.tail ∧
      wrapStatement wide s = d.head :: d.tail ∧
      d.later.flatten <:+ c.later.flatten ∧ d.later.length ≤ c.later.length := by
  obtain ⟨c, hc, hnarrow⟩ := exists_firstFit hs narrow
  obtain ⟨d, hd, hwide⟩ := exists_firstFit hs wide
  obtain ⟨hfirst, hlater⟩ := hnarrow.admitted.mono h
    (Nat.sub_le_sub_right h (columns (Marker.ofStatement s).indent))
  have hsame : d.first :: d.more ++ d.later.flatten = c.first :: c.more ++ c.later.flatten :=
    d.words_eq.symm.trans c.words_eq
  have hsuffix := hwide.reaches hfirst ⟨[], hsame⟩
  exact ⟨c, d, hc, hd, hsuffix, hwide.2.2.2.length_le_of_suffix hlater hsuffix⟩

theorem length_wrapStatement_le :
    (wrapStatement wide s).length ≤ (wrapStatement narrow s).length := by
  by_cases hs : words s = []
  · simp [wrapStatement_nil hs]
  obtain ⟨c, d, hc, hd, -, hle⟩ := exists_widened h hs
  simpa [hc, hd, Cut.tail] using hle

theorem length_encode_wrapStatement_le :
    (encode (ofLines (wrapStatement wide s))).length ≤
      (encode (ofLines (wrapStatement narrow s))).length := by
  by_cases hs : words s = []
  · simp [wrapStatement_nil hs]
  obtain ⟨c, d, hc, hd, -, hle⟩ := exists_widened h hs
  rw [hc, hd, c.length_encode, d.length_encode]
  exact Nat.add_le_add_left (Nat.mul_le_mul_right _ hle) _

theorem wideWords_le : wideWords wide s ≤ wideWords narrow s := by
  by_cases hs : words s = []
  · simp [wideWords, laterWords, wrapStatement_nil hs, hs]
  obtain ⟨c, d, hc, hd, hsuffix, -⟩ := exists_widened h hs
  rw [wideWords, wideWords, c.laterWords_eq hc, d.laterWords_eq hd, c.words_eq]
  apply Nat.add_le_add
  · simp only [List.head?_cons, Option.any_some, decide_eq_true_eq]
    split <;> split <;> omega
  · refine Nat.le_trans hsuffix.sublist.countP_le (List.countP_mono_left fun w _ hw => ?_)
    simp only [decide_eq_true_eq] at hw ⊢
    omega

theorem countP_overlong_le (hesc : escapeSign ∉ s) :
    (wrapStatement wide s).countP (Layout.wrapped wide).overlong ≤
      (wrapStatement narrow s).countP (Layout.wrapped narrow).overlong := by
  rw [countP_overlong hesc, countP_overlong hesc]
  exact wideWords_le h

end

end

end SpiceDeck
