import Mathlib.Algebra.Ring.Nat
import Mathlib.Order.Bounds.Defs
import SpiceDeck.Proofs.Layout.Filling

/-!
# The fewest lines

No cut of the words of a text has fewer lines than first fit makes of them (`wrapBy_fewest`). First fit
stays ahead: after as many lines as another cut has, it has no more words left.
-/

namespace SpiceDeck

open Text

/-! ## Lines within a limit -/

/-- The columns of words with single spaces between, each word measured by itself. -/
def lineColumns (line : List Text) : Nat := (line.map columns).sum + (line.length - 1)

/-- A word may stand alone whatever its columns; words together have to be within the limit. -/
structure Admits (limit : Nat) (line : List Text) : Prop where
  ne_nil : line ≠ []
  within : line.length = 1 ∨ lineColumns line ≤ limit

/-- Cuts with a limit for the first line and one for the later ones. -/
def Admitted (first later : Nat) : List (List Text) → Prop
  | [] => True
  | line :: rest => Admits first line ∧ ∀ l ∈ rest, Admits later l

theorem spread_eq {line : List Text} (h : line ≠ []) : spread line = lineColumns line + 1 := by
  have hs : spread line = (line.map columns).sum + line.length := by
    clear h
    induction line with
    | nil => rfl
    | cons w line ih => simp [ih]; omega
  have hl := List.length_pos_iff.mpr h
  rw [hs, lineColumns]
  omega

theorem Admits.mono {small large : Nat} {line : List Text} (h : Admits small line)
    (hle : small ≤ large) : Admits large line := by
  refine ⟨h.ne_nil, ?_⟩
  cases h.within with
  | inl h => exact .inl h
  | inr h => exact .inr (Nat.le_trans h hle)

theorem Admitted.mono {first later first' later' : Nat} {lines : List (List Text)}
    (h : Admitted first later lines) (hf : first ≤ first') (hl : later ≤ later') :
    Admitted first' later' lines := by
  cases lines with
  | nil => trivial
  | cons line rest => exact ⟨h.1.mono hf, fun l hm => (h.2 l hm).mono hl⟩

/-- On a line within its limit each word fits behind those before it. -/
theorem Admits.fits {limit : Nat} {before vs more : List Text} {w : Text}
    (h : Admits limit (before ++ vs ++ w :: more)) (hne : vs ≠ []) : Fits limit vs w := by
  have hv := List.length_pos_iff.mpr hne
  have hs := spread_eq h.ne_nil
  simp only [spread_append, spread_cons] at hs
  cases h.within with
  | inl h =>
    simp only [List.length_append, List.length_cons] at h
    omega
  | inr h =>
    unfold Fits
    omega

section
variable {first later limit : Nat} {line : List Text} {rest cut : List (List Text)}

theorem FirstFit.admits (h : FirstFit later limit (line :: rest)) : Admits limit line := by
  refine ⟨h.1, ?_⟩
  rcases List.eq_nil_or_concat line with rfl | ⟨vs, w, rfl⟩
  · exact absurd rfl h.1
  rw [List.concat_eq_append] at h ⊢
  cases vs with
  | nil => exact .inl rfl
  | cons v vs =>
    have hfits := h.2.1 (v :: vs) w [] rfl (List.cons_ne_nil v vs)
    have hs := spread_eq h.1
    simp only [Fits, spread_append, spread_cons, spread_nil] at hfits hs
    right
    omega

theorem FirstFit.admitted {lines : List (List Text)} (h : FirstFit later limit lines) :
    Admitted limit later lines := by
  induction lines generalizing limit with
  | nil => trivial
  | cons line rest ih =>
    refine ⟨h.admits, ?_⟩
    have hr := ih h.2.2.2
    cases rest with
    | nil => simp
    | cons l rest => exact List.forall_mem_cons.mpr hr

/-! ## Staying ahead -/

/-- A line cut by first fit reaches as far as any line within the limit that begins no later. -/
theorem FirstFit.reaches (h : FirstFit later limit (line :: rest)) {c more : List Text}
    (hc : Admits limit c) (hs : line ++ rest.flatten <:+ c ++ more) : rest.flatten <:+ more := by
  obtain ⟨before, hb⟩ := hs
  rw [← List.append_assoc] at hb
  rcases List.append_eq_append_iff.mp hb with ⟨behind, rfl, hr⟩ | ⟨behind, -, hm⟩
  · cases behind with
    | nil => exact hr ▸ List.suffix_rfl
    | cons w behind =>
      -- the first word left over would have fitted on the line
      obtain ⟨l, ls, rfl, -⟩ := h.2.2.2.eq_cons hr
      exact absurd (hc.fits h.1) (h.2.2.1 w rfl)
  · exact ⟨behind, hm.symm⟩

/-- With no more words to go, first fit needs no more lines. -/
theorem FirstFit.length_le_of_suffix {lines : List (List Text)} (h : FirstFit later later lines)
    (hc : ∀ c ∈ cut, Admits later c) (hs : lines.flatten <:+ cut.flatten) :
    lines.length ≤ cut.length := by
  induction cut generalizing lines with
  | nil =>
    have hf : lines.flatten = [] := List.suffix_nil.mp hs
    cases lines with
    | nil => exact Nat.le_refl 0
    | cons line rest => exact absurd (List.append_eq_nil_iff.mp hf).1 h.1
  | cons c cut ih =>
    cases lines with
    | nil => exact Nat.zero_le _
    | cons line rest =>
      have hr := h.reaches (hc c (List.mem_cons_self ..)) hs
      have := ih h.2.2.2 (fun d hd => hc d (List.mem_cons_of_mem _ hd)) hr
      simpa using this

theorem FirstFit.length_le {lines : List (List Text)} (h : FirstFit later first lines)
    (hc : Admitted first later cut) (hf : lines.flatten = cut.flatten) :
    lines.length ≤ cut.length := by
  cases lines with
  | nil => exact Nat.zero_le _
  | cons line rest =>
    cases cut with
    | nil => exact absurd (List.append_eq_nil_iff.mp hf).1 h.1
    | cons c cut =>
      have hr := h.reaches hc.1 ⟨[], hf⟩
      have := h.2.2.2.length_le_of_suffix hc.2 hr
      simpa using this

end

/-! ## Wrapped texts -/

theorem length_indentLines (initial subsequent : Text) (lines : List (List Text)) :
    (indentLines initial subsequent lines).length = lines.length := by
  cases lines <;> simp [indentLines]

/-- **The fewest lines.** Cut the words of a text into lines in any way, each of one word, or of several
that keep within the width beside the indent. Such a cut has no fewer lines than wrapping gives, and
wrapping gives one. -/
theorem wrapBy_fewest {fill : Filler} (h : FillsFirstFit fill) (text : Text) (width : Nat)
    (initial subsequent : Text) :
    wrapBy fill text width initial subsequent = wrapWords text width initial subsequent ∧
      IsLeast {n | ∃ cut, cut.flatten = words text ∧
          Admitted (width - columns initial) (width - columns subsequent) cut ∧ cut.length = n}
        (wrapBy fill text width initial subsequent).length := by
  refine ⟨wrapBy_eq h .., ?_⟩
  rw [wrapBy_eq h, wrapWords, length_indentLines]
  obtain ⟨hf, hfit⟩ := firstFit_iff.mpr
    (rfl : pack (width - columns initial) (width - columns subsequent) (words text) = _)
  constructor
  · exact ⟨_, hf, hfit.admitted, rfl⟩
  · rintro n ⟨cut, hcut, hc, rfl⟩
    exact hfit.length_le hc (hf.trans hcut.symm)

/-- A long word stands alone, and the indent leaves three columns for the words behind it. -/
theorem wrapBy_fewest_long_word :
    FillsFirstFit fillFirstFit ∧
      wrapWords "a longword b c".toList 5 [] "+ ".toList =
        ["a".toList, "+ longword".toList, "+ b c".toList] ∧
      wrapBy fillFirstFit "a longword b c".toList 5 [] "+ ".toList =
        wrapWords "a longword b c".toList 5 [] "+ ".toList ∧
      IsLeast {n | ∃ cut, cut.flatten = words "a longword b c".toList ∧
          Admitted (5 - columns []) (5 - columns "+ ".toList) cut ∧ cut.length = n}
        (wrapBy fillFirstFit "a longword b c".toList 5 [] "+ ".toList).length :=
  ⟨fillsFirstFit_fillFirstFit, by decide, wrapBy_fewest fillsFirstFit_fillFirstFit _ 5 [] _⟩

end SpiceDeck
