import SpiceDeck.Proofs.Statement.Counting
import SpiceDeck.Proofs.Statement.Iteration

/-!
# One deck behind another

A line that begins a statement, whatever is in flight, lets go what the end of the deck would let go. So
a deck that begins with such a line adds its own statements and its own counts to those of a deck that
it is put behind (`decks_join`).
-/

namespace SpiceDeck

open Text

instance : Add Counts where
  add c d :=
    { physical := c.physical + d.physical
      continuation := c.continuation + d.continuation
      logical := c.logical + d.logical
      held := c.held + d.held }

/-! ## Up to a line that begins a statement -/

section
variable {policy : CommentPolicy} {l : Text} (hl : continuesStatement l = false)
  (hc : policy = .hold → isCommentLine l = false)
include hc

theorem not_waits (continuing : Bool) :
    (continuing && policy == .hold && isCommentLine l) = false := by
  cases policy with
  | split => simp
  | hold => simp [hc rfl]

include hl

theorem yields_append (ls rest : List Text) :
    ∀ (p : Text) (continuing : Bool) (held : List Text),
      yields policy p continuing held (ls ++ l :: rest) =
        yields policy p continuing held ls ++ yields policy l false [] rest := by
  induction ls with
  | nil =>
    intro p continuing held
    exact yields_start hl (not_waits hc continuing) rest
  | cons m ls ih =>
    intro p continuing held
    rw [List.cons_append, yields, yields]
    by_cases hm : continuesStatement m = true
    · rw [if_pos hm, if_pos hm, ih]
    rw [if_neg hm, if_neg hm]
    by_cases hw : (continuing && policy == .hold && isCommentLine m) = true
    · rw [if_pos hw, if_pos hw, ih]
    · rw [if_neg hw, if_neg hw, ih, List.cons_append, List.append_assoc]

theorem waits_append (ls rest : List Text) :
    ∀ continuing : Bool,
      waits policy continuing (ls ++ l :: rest) =
        waits policy continuing ls + waits policy false (l :: rest) := by
  have hn : ¬ continuesStatement l = true := by simp [hl]
  have hw : ∀ continuing, waits policy continuing (l :: rest) = waits policy false rest := by
    intro continuing
    rw [waits, if_neg hn, if_neg (by simp [not_waits hc continuing])]
  induction ls with
  | nil =>
    intro continuing
    rw [List.nil_append, hw, hw]
    simp [waits]
  | cons m ls ih =>
    intro continuing
    rw [List.cons_append, waits, waits]
    by_cases hm : continuesStatement m = true
    · rw [if_pos hm, if_pos hm, ih]
    rw [if_neg hm, if_neg hm]
    by_cases hh : (continuing && policy == .hold && isCommentLine m) = true
    · rw [if_pos hh, if_pos hh, ih]
      omega
    · rw [if_neg hh, if_neg hh, ih]

end

/-! ## Whole decks -/

/-- There is a line that is not blank, and the first of them begins a statement whatever is in flight. -/
def StartsAnew (policy : CommentPolicy) (ls : List Text) : Prop :=
  ∃ l ∈ (trimmedLines ls).head?,
    continuesStatement l = false ∧ (policy = .hold → isCommentLine l = false)

instance (policy : CommentPolicy) (ls : List Text) : Decidable (StartsAnew policy ls) :=
  inferInstanceAs (Decidable (∃ l ∈ (trimmedLines ls).head?, _))

section
variable {options : Options} {a b : List Text} (ha : trimmedLines a ≠ [])
  (hb : StartsAnew options.comments b)
include ha hb

theorem statements_append :
    statements options (a ++ b) = statements options a ++ statements options b := by
  obtain ⟨l, hl, hk, hc⟩ := hb
  obtain ⟨rest, hb⟩ := List.head?_eq_some_iff.mp hl
  obtain ⟨m, more, hm⟩ := List.exists_cons_of_ne_nil ha
  have hj : trimmedLines (a ++ b) = m :: (more ++ l :: rest) := by
    rw [trimmedLines_append, hm, hb, List.cons_append]
  rw [statements_start hb hk]
  by_cases hs : continuesStatement m = true
  · rw [statements_continuation hj hs, statements_continuation hm hs, ← List.cons_append]
    exact yields_append hk hc (m :: more) rest [] false []
  · rw [Bool.not_eq_true] at hs
    rw [statements_start hj hs, statements_start hm hs]
    exact yields_append hk hc more rest m false []

theorem assemble_append :
    assemble options (a ++ b) =
      ((assemble options a).1 ++ (assemble options b).1,
        (assemble options a).2 + (assemble options b).2) := by
  have hs := statements_append ha hb
  have hw : waits options.comments false (trimmedLines a ++ trimmedLines b) =
      waits options.comments false (trimmedLines a) +
        waits options.comments false (trimmedLines b) := by
    obtain ⟨l, hl, hk, hc⟩ := hb
    obtain ⟨rest, hb⟩ := List.head?_eq_some_iff.mp hl
    rw [hb]
    exact waits_append hk hc (trimmedLines a) rest false
  refine Prod.ext hs ?_
  rw [counts_assemble, counts_assemble, counts_assemble, trimmedLines_append, hs, hw]
  simp only [List.length_append, List.countP_append]
  rfl

/-- **Decks join.** Put a deck that starts anew behind a deck that is not blank. The calls give the
statements of the one and then those of the other, and each count is the sum. -/
theorem decks_join :
    ∃ ss c ss' c', (Statements.ofLines options a).Gives ss c ∧
      (Statements.ofLines options b).Gives ss' c' ∧
      (Statements.ofLines options (a ++ b)).Gives (ss ++ ss') (c + c') := by
  refine ⟨_, _, _, _, Statements.gives_assemble options a, Statements.gives_assemble options b, ?_⟩
  have h := Statements.gives_assemble options (a ++ b)
  rw [assemble_append ha hb] at h
  exact h

end

/-- The comment that waits at the end of the first deck is let go by the first line of the second. -/
theorem decks_join_waiting :
    trimmedLines ["+0".toList, "* c".toList] ≠ [] ∧
      StartsAnew .hold [" ".toList, " R1 ".toList, "+a".toList] ∧
      (Statements.ofLines ⟨.hold, .nothing⟩ ["+0".toList, "* c".toList]).Gives
        [" 0".toList, "* c".toList] ⟨2, 1, 2, 1⟩ ∧
      (Statements.ofLines ⟨.hold, .nothing⟩ [" ".toList, " R1 ".toList, "+a".toList]).Gives
        ["R1 a".toList] ⟨2, 1, 1, 0⟩ ∧
      (Statements.ofLines ⟨.hold, .nothing⟩
        ["+0".toList, "* c".toList, " ".toList, " R1 ".toList, "+a".toList]).Gives
          [" 0".toList, "* c".toList, "R1 a".toList] ⟨4, 2, 3, 1⟩ := by
  have ha : trimmedLines ["+0".toList, "* c".toList] ≠ [] := by decide
  have hb : StartsAnew .hold [" ".toList, " R1 ".toList, "+a".toList] := by decide
  obtain ⟨ss, c, ss', c', hfirst, hsecond, hboth⟩ := @decks_join ⟨.hold, .nothing⟩ _ _ ha hb
  obtain ⟨rfl, rfl⟩ : ss = [" 0".toList, "* c".toList] ∧ c = ⟨2, 1, 2, 1⟩ :=
    Prod.mk.inj (hfirst.eq_assemble.trans (by decide))
  obtain ⟨rfl, rfl⟩ : ss' = ["R1 a".toList] ∧ c' = ⟨2, 1, 1, 0⟩ :=
    Prod.mk.inj (hsecond.eq_assemble.trans (by decide))
  exact ⟨ha, hb, hfirst, hsecond, hboth⟩

end SpiceDeck
