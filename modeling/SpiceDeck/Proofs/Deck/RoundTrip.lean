import Mathlib.Data.List.Forall2
import SpiceDeck.Proofs.Deck.Transfer
import SpiceDeck.Proofs.Layout.Rereading

/-!
# Reflow and back

What a reflow writes can be read again. Under `split` the statements that come back are the old ones
with their physical lines put together, so the text is faithful as long as no line of it has a plus
sign or an asterisk right behind its indent.
-/

namespace SpiceDeck

open Text Utf8

section
variable (width : LineWidth) (options : Options) {t : Text}

theorem lines_reflowed : lines (ofLines (reflowed width options t)) = reflowed width options t := by
  have h : ∀ l ∈ reflowed width options t, IsPhysical l := fun _ hl => isPhysical_of_mem_flatMap hl
  rw [lines_ofLines fun l hl => (h l hl).newline,
    List.map_congr_left fun l hl => dropReturn_eq_self (h l hl).trimmed, List.map_id']

theorem eq_nil_of_mem_statementsOfText (h : trimmedLines (lines t) = []) :
    ∀ s ∈ statementsOfText options t, s = [] := by
  rw [statementsOfText, statements_blank h]
  split <;> simp

theorem reflowed_blank (h : trimmedLines (lines t) = []) : reflowed width options t = [] := by
  rw [reflowed_eq, List.flatMap_eq_nil_iff]
  intro s hm
  rw [eq_nil_of_mem_statementsOfText options h s hm]
  exact wrapStatement_nil words_nil width

theorem statementsOfText_blank (h : trimmedLines (lines t) = []) :
    statementsOfText options (ofLines (reflowed width options t)) =
      (statementsOfText options t).map (reread width) ∧
      ∀ s ∈ statementsOfText options t, s = [] := by
  have hs := eq_nil_of_mem_statementsOfText options h
  have hr : (statementsOfText options t).map (reread width) = statementsOfText options t := by
    refine (List.map_congr_left fun s hm => ?_).trans (List.map_id' _)
    rw [hs s hm]
    rfl
  refine ⟨?_, hs⟩
  rw [hr, reflowed_blank width options h, ofLines_nil, statementsOfText, lines_nil,
    statements_blank trimmedLines_nil, statementsOfText, statements_blank h]

theorem statementsOfText_cons {s : Text} {ss : List Text} (h : statementsOfText options t = s :: ss)
    (hs : IsStatement s) :
    statementsOfText options (ofLines (reflowed width options t)) =
      yields options.comments (reread width s) (takesMore width s) [] (ss.flatMap (wrapStatement width)) := by
  rw [statementsOfText, lines_reflowed width options, reflowed_eq, h, statements_wrapped hs]

/-- **Reading a reflow back under `split`.** -/
theorem statementsOfText_reflowed (emptyDeck : EmptyDeck) (h : StartsStatement (lines t)) :
    statementsOfText ⟨.split, emptyDeck⟩ (ofLines (reflowed width ⟨.split, emptyDeck⟩ t)) =
      (statementsOfText ⟨.split, emptyDeck⟩ t).map (reread width) := by
  rcases h.cases ⟨.split, emptyDeck⟩ with hb | ⟨s, ss, he, hs⟩
  · exact (statementsOfText_blank width _ hb).1
  · rw [statementsOfText_cons width _ he (hs s (List.mem_cons_self ..)),
      yields_split fun x hx => hs x (List.mem_cons_of_mem _ hx), statementsOfText, he]
    rfl

end

/-! ## Faithful reflows -/

/-- What reading back keeps of a statement: the first word, the marker, and all of it if none of the
later lines of the statement loses a sign. -/
structure ReadsBack (width : LineWidth) (s r : Text) : Prop where
  first_word : (words r).head? = (words s).head?
  marker : Marker.ofStatement r = Marker.ofStatement s
  whole_iff : r = Text.normalize s ↔ ∀ line ∈ (wrapStatement width s).tail, losesSign line = false

theorem readsBack_reread (width : LineWidth) (s : Text) : ReadsBack width s (reread width s) where
  first_word := head?_words_reread width s
  marker := ofStatement_congr (head?_words_reread width s)
  whole_iff := reread_eq_normalize_iff width s

/-- **Reflow, statement by statement.** Unwrapping what a reflow wrote gives the statements of the
text in their order, each with its first word and marker, and a statement comes back whole just when
none of its later lines has a plus sign or an asterisk right behind the indent. -/
theorem reflow_readsBack (width : LineWidth) (emptyDeck : EmptyDeck) {source : Source} {t : Text}
    (ht : source.text? = some t) (hs : StartsStatement (lines t)) :
    ∃ written, ReflowsTo width ⟨.split, emptyDeck⟩ source written ∧
      lines written = (statementsOfText ⟨.split, emptyDeck⟩ t).flatMap (wrapStatement width) ∧
      List.Forall₂ (ReadsBack width) (statementsOfText ⟨.split, emptyDeck⟩ t)
        (statementsOfText ⟨.split, emptyDeck⟩ written) := by
  refine ⟨_, reflowsTo_ofLines width ⟨.split, emptyDeck⟩ ht, lines_reflowed width _, ?_⟩
  rw [statementsOfText_reflowed width emptyDeck hs, List.forall₂_map_right_iff, List.forall₂_same]
  exact fun s _ => readsBack_reread width s

/-- The asterisk comes first on a continuation line, so the resistor comes back without it. The comment
has one line and comes back whole. -/
theorem reflow_readsBack_resistors :
    (Source.ofBytes (encode "R1 1 *k\n+ 0\n* R2".toList)).text? = some "R1 1 *k\n+ 0\n* R2".toList ∧
      StartsStatement (lines "R1 1 *k\n+ 0\n* R2".toList) ∧
      ReflowsTo ⟨4, by decide⟩ ⟨.split, .nothing⟩
        (.ofBytes (encode "R1 1 *k\n+ 0\n* R2".toList)) "R1 1\n+ *k\n+ 0\n* R2\n".toList ∧
      statementsOfText ⟨.split, .nothing⟩ "R1 1 *k\n+ 0\n* R2".toList =
        ["R1 1 *k 0".toList, "* R2".toList] ∧
      lines "R1 1\n+ *k\n+ 0\n* R2\n".toList =
        ["R1 1 *k 0".toList, "* R2".toList].flatMap (wrapStatement ⟨4, by decide⟩) ∧
      statementsOfText ⟨.split, .nothing⟩ "R1 1\n+ *k\n+ 0\n* R2\n".toList =
        ["R1 1 k 0".toList, "* R2".toList] ∧
      List.Forall₂ (ReadsBack ⟨4, by decide⟩) ["R1 1 *k 0".toList, "* R2".toList]
        ["R1 1 k 0".toList, "* R2".toList] := by
  have ht := Source.text?_ofBytes_encode "R1 1 *k\n+ 0\n* R2".toList
  have hs : StartsStatement (lines "R1 1 *k\n+ 0\n* R2".toList) := by decide
  obtain ⟨written, hto, hlines, hback⟩ := reflow_readsBack ⟨4, by decide⟩ .nothing ht hs
  obtain rfl : written = "R1 1\n+ *k\n+ 0\n* R2\n".toList :=
    (hto.unique (reflowsTo_ofLines _ _ ht)).trans (by decide)
  have hold : statementsOfText ⟨.split, .nothing⟩ "R1 1 *k\n+ 0\n* R2".toList =
      ["R1 1 *k 0".toList, "* R2".toList] := by decide
  have hnew : statementsOfText ⟨.split, .nothing⟩ "R1 1\n+ *k\n+ 0\n* R2\n".toList =
      ["R1 1 k 0".toList, "* R2".toList] := by decide
  rw [hold] at hlines hback
  rw [hnew] at hback
  exact ⟨ht, hs, hto, hold, hlines, hnew, hback⟩

/-- The first line of a statement is no continuation, so it has no sign to lose. -/
theorem losesSign_wrapStatement_iff {width : LineWidth} {s : Text} (hs : IsStatement s) :
    (∀ line ∈ wrapStatement width s, losesSign line = false) ↔
      ∀ line ∈ (wrapStatement width s).tail, losesSign line = false := by
  obtain ⟨l, ks, h, hl, -⟩ := exists_wrapped hs width
  have hf : losesSign l = false := by
    rw [← Bool.not_eq_true]
    intro hc
    have := continuesStatement_of_losesSign hc
    rw [hl.begins] at this
    cases this
  rw [h, List.forall_mem_cons, List.tail_cons]
  exact and_iff_right hf

/-- **Faithful reflows.** Unwrapping what a reflow wrote gives the statements of the text, with single
spaces, just when no written line has a plus sign or an asterisk right behind its indent. -/
theorem reflow_faithful_iff (width : LineWidth) (emptyDeck : EmptyDeck) {source : Source} {t : Text}
    (ht : source.text? = some t) (hs : StartsStatement (lines t)) :
    ∃ written, ReflowsTo width ⟨.split, emptyDeck⟩ source written ∧
      (statementsOfText ⟨.split, emptyDeck⟩ written =
        (statementsOfText ⟨.split, emptyDeck⟩ t).map Text.normalize ↔
        ∀ line ∈ lines written, losesSign line = false) := by
  refine ⟨_, reflowsTo_ofLines width ⟨.split, emptyDeck⟩ ht, ?_⟩
  rw [statementsOfText_reflowed width emptyDeck hs, lines_reflowed, List.map_inj_left, reflowed_eq,
    List.forall_mem_flatMap]
  refine forall₂_congr fun s hm => ?_
  rw [reread_eq_normalize_iff]
  rcases hs.cases ⟨.split, emptyDeck⟩ with hb | ⟨x, xs, he, hst⟩
  · rw [(statementsOfText_blank width ⟨.split, emptyDeck⟩ hb).2 s hm, wrapStatement_nil words_nil]
    rfl
  · have hm' : s ∈ statements ⟨.split, emptyDeck⟩ (lines t) := hm
    rw [he] at hm'
    exact (losesSign_wrapStatement_iff (hst s hm')).symm

/-- The asterisk is not the first character of its line, and the statement comes back. -/
theorem reflow_faithful_iff_resistor :
    (Source.ofBytes (encode "R1 a  *b c".toList)).text? = some "R1 a  *b c".toList ∧
      StartsStatement (lines "R1 a  *b c".toList) ∧
      ReflowsTo ⟨7, by decide⟩ ⟨.split, .emptyLine⟩ (.ofBytes (encode "R1 a  *b c".toList))
        "R1 a *b\n+ c\n".toList ∧
      (∀ line ∈ lines "R1 a *b\n+ c\n".toList, losesSign line = false) ∧
      statementsOfText ⟨.split, .emptyLine⟩ "R1 a *b\n+ c\n".toList =
        (statementsOfText ⟨.split, .emptyLine⟩ "R1 a  *b c".toList).map Text.normalize ∧
      statementsOfText ⟨.split, .emptyLine⟩ "R1 a *b\n+ c\n".toList = ["R1 a *b c".toList] := by
  have ht := Source.text?_ofBytes_encode "R1 a  *b c".toList
  have hs : StartsStatement (lines "R1 a  *b c".toList) := by decide
  obtain ⟨written, hto, hiff⟩ := reflow_faithful_iff ⟨7, by decide⟩ .emptyLine ht hs
  obtain rfl : written = "R1 a *b\n+ c\n".toList :=
    (hto.unique (reflowsTo_ofLines _ _ ht)).trans (by decide)
  have hkept : ∀ line ∈ lines "R1 a *b\n+ c\n".toList, losesSign line = false := by decide
  exact ⟨ht, hs, hto, hkept, hiff.mpr hkept, by decide⟩

/-- A word that begins with an asterisk loses it where it comes first on a continuation line. -/
theorem reflow_drops_asterisk :
    (Source.ofBytes (encode "R1 a *b".toList)).text? = some "R1 a *b".toList ∧
      StartsStatement (lines "R1 a *b".toList) ∧
      ReflowsTo ⟨5, by decide⟩ ⟨.split, .emptyLine⟩
        (.ofBytes (encode "R1 a *b".toList)) "R1 a\n+ *b\n".toList ∧
      statementsOfText ⟨.split, .emptyLine⟩ "R1 a\n+ *b\n".toList = ["R1 a b".toList] ∧
      (statementsOfText ⟨.split, .emptyLine⟩ "R1 a *b".toList).map Text.normalize =
        ["R1 a *b".toList] :=
  ⟨Source.text?_ofBytes_encode _, by decide,
    reflowsTo_ofLines ⟨5, by decide⟩ ⟨.split, .emptyLine⟩
      (Source.text?_ofBytes_encode "R1 a *b".toList),
    by decide, by decide⟩

end SpiceDeck
