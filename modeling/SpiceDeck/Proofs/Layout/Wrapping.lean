import SpiceDeck.Layout.Reflow
import SpiceDeck.Proofs.Layout.FirstFit
import SpiceDeck.Proofs.Statement.Beginnings

/-!
# The lines of a wrapped statement

Packing cuts the words of a text into lines and loses none (`exists_cut`). The physical lines are
trimmed, hold no newline, and all but the first continue the statement.
-/

namespace SpiceDeck

open Text

/-- A text cut into lines of words: a first line, which has the first word and more, and later
lines, which have a word each. -/
structure Cut (s : Text) where
  first : Text
  more : List Text
  later : List (List Text)
  words_eq : words s = first :: (more ++ later.flatten)
  ne_nil : ∀ ws ∈ later, ws ≠ []

def continuationLine (m : Marker) (ws : List Text) : Text := m.indent ++ joinWords ws

namespace Cut

variable {s : Text} (c : Cut s)

def head : Text := joinWords (c.first :: c.more)

def tail : List Text := c.later.map (continuationLine (Marker.ofStatement s))

theorem isWord : ∀ w ∈ c.first :: (c.more ++ c.later.flatten), IsWord w :=
  fun _ hw => isWord_of_mem_words (c.words_eq ▸ hw)

theorem isWord_first : IsWord c.first := c.isWord c.first (List.mem_cons_self ..)

theorem isWord_head : ∀ w ∈ c.first :: c.more, IsWord w := fun w hw => c.isWord w (by
  rw [← List.cons_append]
  exact List.mem_append_left _ hw)

theorem isWord_later {ws : List Text} (h : ws ∈ c.later) : ∀ w ∈ ws, IsWord w := fun w hw =>
  c.isWord w (List.mem_cons_of_mem _ (List.mem_append_right _ (List.mem_flatten_of_mem h hw)))

end Cut

theorem wrapStatement_nil {s : Text} (h : words s = []) (width : LineWidth) :
    wrapStatement width s = [] := by
  rw [wrapStatement, wrapWords, h]
  rfl

/-- Only its words count when a statement is wrapped. -/
theorem wrapStatement_congr {s t : Text} (h : words s = words t) (width : LineWidth) :
    wrapStatement width s = wrapStatement width t := by
  have hm : Marker.ofStatement s = Marker.ofStatement t := ofStatement_congr (by rw [h])
  rw [wrapStatement, wrapStatement, wrapWords, wrapWords, h, hm]

theorem wrapStatement_trim (width : LineWidth) (s : Text) :
    wrapStatement width (Text.trim s) = wrapStatement width s :=
  wrapStatement_congr (words_trim s) width

theorem wrapStatement_normalize (width : LineWidth) (s : Text) :
    wrapStatement width (Text.normalize s) = wrapStatement width s :=
  wrapStatement_congr (words_joinWords fun _ => isWord_of_mem_words) width

/-- The lines of a statement that has words are a cut of them made by first fit. -/
theorem exists_firstFit {s : Text} (h : words s ≠ []) (width : LineWidth) :
    ∃ c : Cut s, wrapStatement width s = c.head :: c.tail ∧
      FirstFit (width.columns - columns (Marker.ofStatement s).indent) width.columns
        ((c.first :: c.more) :: c.later) := by
  obtain ⟨w, ws, hw⟩ := List.exists_cons_of_ne_nil h
  generalize hm : Marker.ofStatement s = m
  obtain ⟨hf, hfit⟩ := firstFit_iff.mpr
    (rfl : pack width.columns (width.columns - columns m.indent) (words s) = _)
  obtain ⟨more, later, hp, hcut⟩ := hfit.eq_cons (hf.trans hw)
  rw [hp] at hfit
  have hne := hfit.ne_nil
  refine ⟨⟨w, more, later, by rw [hw, hcut], fun line hl => hne line (List.mem_cons_of_mem _ hl)⟩,
    ?_, hfit⟩
  rw [wrapStatement, wrapWords, hm, show width.columns - columns [] = width.columns from rfl, hp,
    Cut.tail, hm]
  rfl

theorem exists_cut {s : Text} (h : words s ≠ []) (width : LineWidth) :
    ∃ c : Cut s, wrapStatement width s = c.head :: c.tail := by
  obtain ⟨c, hc, -⟩ := exists_firstFit h width
  exact ⟨c, hc⟩

/-! ## Physical lines -/

/-- A line that is read back as it was written. -/
structure IsPhysical (l : Text) : Prop where
  trimmed : IsTrimmed l
  newline : '\n' ∉ l

theorem not_mem_indent (m : Marker) : '\n' ∉ m.indent := by
  cases m <;> decide

theorem isPhysical_joinWords {ws : List Text} (hne : ws ≠ []) (h : ∀ w ∈ ws, IsWord w) :
    IsPhysical (joinWords ws) := by
  obtain ⟨w, ws, rfl⟩ := List.exists_cons_of_ne_nil hne
  exact ⟨isTrimmed_joinWords h, not_mem_joinWords h isBlank_newline (by decide)⟩

theorem isPhysical_continuationLine (m : Marker) {ws : List Text} (hne : ws ≠ [])
    (h : ∀ w ∈ ws, IsWord w) :
    IsPhysical (continuationLine m ws) := by
  have hp := isPhysical_joinWords hne h
  refine ⟨⟨trim_eq_self (fun c hc => ?_) (fun c hc => ?_), ?_⟩, fun hm => ?_⟩
  · cases m <;> (cases hc; decide)
  · rw [continuationLine, List.getLast?_append, List.getLast?_eq_some_getLast hp.trimmed.2] at hc
    exact getLast?_joinWords h c (by rwa [List.getLast?_eq_some_getLast hp.trimmed.2])
  · cases m <;> simp [continuationLine, Marker.indent, Marker.sign]
  · rcases List.mem_append.mp hm with hm | hm
    · exact not_mem_indent m hm
    · exact hp.newline hm

section
variable {s : Text} (c : Cut s)

theorem Cut.isPhysical_head : IsPhysical c.head := isPhysical_joinWords (by simp) c.isWord_head

theorem Cut.isPhysical_of_mem_tail {k : Text} (h : k ∈ c.tail) : IsPhysical k := by
  obtain ⟨ws, hm, rfl⟩ := List.mem_map.mp h
  exact isPhysical_continuationLine _ (c.ne_nil ws hm) (c.isWord_later hm)

theorem Cut.continuesStatement_of_mem_tail {k : Text} (h : k ∈ c.tail) :
    continuesStatement k = true := by
  obtain ⟨ws, _, rfl⟩ := List.mem_map.mp h
  exact continuesStatement_indent _ _

theorem Cut.isStatement_head (h : IsStatement s) : IsStatement c.head := by
  obtain ⟨w, ws, hw, hword, hb, hh⟩ := h.exists_words
  obtain ⟨rfl, -⟩ := List.cons.inj (hw.symm.trans c.words_eq)
  refine isStatement_of_trimmed c.isPhysical_head.trimmed ?_
  rw [Cut.head]
  cases c.more with
  | nil => rwa [joinWords_singleton]
  | cons v vs =>
    rw [joinWords_cons _ (by simp), continuesStatement_append hword.1 (by simp)]
    exact hb

theorem Cut.head?_head (h : IsStatement s) : c.head.head? = s.head? := by
  obtain ⟨w, ws, hw, hword, hb, hh⟩ := h.exists_words
  obtain ⟨rfl, -⟩ := List.cons.inj (hw.symm.trans c.words_eq)
  rw [Cut.head, head?_joinWords hword, hh]

end

theorem isPhysical_of_mem_wrapStatement {width : LineWidth} {s l : Text}
    (h : l ∈ wrapStatement width s) : IsPhysical l := by
  by_cases hs : words s = []
  · rw [wrapStatement_nil hs] at h; cases h
  obtain ⟨c, hc⟩ := exists_cut hs width
  rcases List.mem_cons.mp (hc ▸ h) with rfl | h
  · exact c.isPhysical_head
  · exact c.isPhysical_of_mem_tail h

theorem isPhysical_of_mem_flatMap {width : LineWidth} {ss : List Text} {l : Text}
    (h : l ∈ ss.flatMap (wrapStatement width)) : IsPhysical l := by
  obtain ⟨s, -, h⟩ := List.mem_flatMap.mp h
  exact isPhysical_of_mem_wrapStatement h

end SpiceDeck
