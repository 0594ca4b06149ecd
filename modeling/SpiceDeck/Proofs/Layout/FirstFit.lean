import SpiceDeck.Layout.Packing

/-!
# First fit

A cut of words into lines is made by first fit if a word stands on the line of the words before it
just when it fits there. `pack` makes the one cut that is (`firstFit_iff`).
-/

namespace SpiceDeck

open Text

/-- The columns of the words on a line, with a space behind each. -/
def spread : List Text → Nat
  | [] => 0
  | w :: line => columns w + 1 + spread line

@[simp] theorem spread_nil : spread [] = 0 := rfl

@[simp] theorem spread_cons (w : Text) (line : List Text) :
    spread (w :: line) = columns w + 1 + spread line := rfl

theorem spread_append (vs ws : List Text) : spread (vs ++ ws) = spread vs + spread ws := by
  induction vs with
  | nil => simp
  | cons v vs ih =>
    rw [List.cons_append, spread_cons, spread_cons, ih]
    omega

/-- Whether a word that comes behind the words of a line is within the limit. -/
def Fits (limit : Nat) (line : List Text) (w : Text) : Prop := spread line + columns w ≤ limit

/-- Lines cut by first fit, with a limit for the first line and one for the later ones: every word but
the first of a line fits behind those before it, and the first word of a line did not fit on the line
before. -/
def FirstFit (later : Nat) : Nat → List (List Text) → Prop
  | _, [] => True
  | limit, line :: rest =>
    line ≠ [] ∧ (∀ ws w more, line = ws ++ w :: more → ws ≠ [] → Fits limit ws w) ∧
      (∀ w ∈ rest.head?.bind List.head?, ¬ Fits limit line w) ∧ FirstFit later later rest

theorem FirstFit.ne_nil {later limit : Nat} {lines : List (List Text)}
    (h : FirstFit later limit lines) : ∀ line ∈ lines, line ≠ [] := by
  induction lines generalizing limit with
  | nil => simp
  | cons line rest ih => exact List.forall_mem_cons.mpr ⟨h.1, ih h.2.2.2⟩

/-- What comes by first fit behind words that take `used` columns, each with its space: more words on
their line, and the lines behind it. -/
structure GoesOn (later limit used : Nat) (line : List Text) (rest : List (List Text)) : Prop where
  fits : ∀ ws w more, line = ws ++ w :: more → used + spread ws + columns w ≤ limit
  full : ∀ w ∈ rest.head?.bind List.head?, limit < used + spread line + columns w
  rest : FirstFit later later rest

section
variable {later limit used : Nat} {w : Text} {line : List Text} {rest : List (List Text)}

theorem firstFit_cons_iff :
    FirstFit later limit ((w :: line) :: rest) ↔ GoesOn later limit (columns w + 1) line rest := by
  constructor
  · rintro ⟨-, hfits, hfull, hrest⟩
    refine ⟨fun ws v more he => ?_, fun v hv => ?_, hrest⟩
    · have := hfits (w :: ws) v more (by rw [he, List.cons_append]) (List.cons_ne_nil w ws)
      simpa [Fits] using this
    · have := hfull v hv
      simpa [Fits] using this
  · rintro ⟨hfits, hfull, hrest⟩
    refine ⟨List.cons_ne_nil w line, fun ws v more he hne => ?_, fun v hv => ?_, hrest⟩
    · obtain ⟨u, ws, rfl⟩ := List.exists_cons_of_ne_nil hne
      rw [List.cons_append, List.cons.injEq] at he
      obtain ⟨rfl, he⟩ := he
      simpa [Fits] using hfits ws v more he
    · simpa [Fits] using hfull v hv

theorem goesOn_cons_iff :
    GoesOn later limit used (w :: line) rest ↔
      used + columns w ≤ limit ∧ GoesOn later limit (used + columns w + 1) line rest := by
  constructor
  · rintro ⟨hfits, hfull, hrest⟩
    refine ⟨hfits [] w line rfl, fun ws v more he => ?_, fun v hv => ?_, hrest⟩
    · have := hfits (w :: ws) v more (by rw [he, List.cons_append])
      simp only [spread_cons] at this
      omega
    · have := hfull v hv
      simp only [spread_cons] at this
      omega
  · rintro ⟨hw, hfits, hfull, hrest⟩
    refine ⟨fun ws v more he => ?_, fun v hv => ?_, hrest⟩
    · cases ws with
      | nil =>
        obtain ⟨rfl, -⟩ := List.cons.inj he
        exact hw
      | cons u ws =>
        rw [List.cons_append, List.cons.injEq] at he
        obtain ⟨rfl, he⟩ := he
        have := hfits ws v more he
        simp only [spread_cons]
        omega
    · have := hfull v hv
      simp only [spread_cons]
      omega

theorem goesOn_nil_iff :
    GoesOn later limit used [] rest ↔
      (∀ w ∈ rest.head?.bind List.head?, limit < used + columns w) ∧ FirstFit later later rest :=
  ⟨fun h => ⟨h.full, h.rest⟩, fun h => ⟨by simp, h.1, h.2⟩⟩

end

theorem FirstFit.eq_cons {later limit : Nat} {lines : List (List Text)} {w : Text} {ws : List Text}
    (h : FirstFit later limit lines) (hf : lines.flatten = w :: ws) :
    ∃ line rest, lines = (w :: line) :: rest ∧ line ++ rest.flatten = ws := by
  match lines with
  | [] => cases hf
  | [] :: rest => exact absurd rfl h.1
  | (v :: line) :: rest =>
    rw [List.flatten_cons, List.cons_append, List.cons.injEq] at hf
    obtain ⟨rfl, hf⟩ := hf
    exact ⟨line, rest, rfl, hf⟩

/-- **A line goes on by first fit** as `flow` says, and in no other way. -/
theorem flow_eq_iff {later limit used : Nat} {ws line : List Text} {rest : List (List Text)} :
    flow later limit used ws = (line, rest) ↔
      line ++ rest.flatten = ws ∧ GoesOn later limit used line rest := by
  induction ws generalizing limit used line rest with
  | nil =>
    rw [flow, Prod.mk.injEq, List.append_eq_nil_iff]
    constructor
    · rintro ⟨rfl, rfl⟩
      exact ⟨⟨rfl, rfl⟩, goesOn_nil_iff.mpr ⟨by simp, trivial⟩⟩
    · rintro ⟨⟨rfl, hf⟩, h⟩
      refine ⟨rfl, ?_⟩
      cases rest with
      | nil => rfl
      | cons l rest => exact absurd (List.append_eq_nil_iff.mp hf).1 h.rest.1
  | cons w ws ih =>
    rw [flow]
    by_cases hw : used + columns w ≤ limit
    · -- `w` stands on this line
      rw [if_pos hw]
      obtain ⟨l, r, h⟩ : ∃ l r, flow later limit (used + columns w + 1) ws = (l, r) := ⟨_, _, rfl⟩
      rw [h]
      obtain ⟨hcut, hgo⟩ := ih.mp h
      constructor
      · rintro ⟨rfl, rfl⟩
        exact ⟨by rw [List.cons_append, hcut], goesOn_cons_iff.mpr ⟨hw, hgo⟩⟩
      · rintro ⟨hc, hg⟩
        cases line with
        | nil =>
          obtain ⟨l', r', rfl, -⟩ := hg.rest.eq_cons hc
          have := hg.full w rfl
          simp only [spread_nil] at this
          omega
        | cons v line =>
          rw [List.cons_append, List.cons.injEq] at hc
          obtain ⟨rfl, hc⟩ := hc
          have := ih.mpr ⟨hc, (goesOn_cons_iff.mp hg).2⟩
          rw [h, Prod.mk.injEq] at this
          rw [this.1, this.2]
    · -- `w` begins the next line
      rw [if_neg hw]
      obtain ⟨l, r, h⟩ : ∃ l r, flow later later (columns w + 1) ws = (l, r) := ⟨_, _, rfl⟩
      rw [h]
      obtain ⟨hcut, hgo⟩ := ih.mp h
      constructor
      · rintro ⟨rfl, rfl⟩
        refine ⟨by rw [List.nil_append, List.flatten_cons, List.cons_append, hcut],
          goesOn_nil_iff.mpr ⟨fun v hv => ?_, firstFit_cons_iff.mpr hgo⟩⟩
        obtain rfl : w = v := Option.some.inj hv
        omega
      · rintro ⟨hc, hg⟩
        cases line with
        | nil =>
          obtain ⟨l', r', rfl, hc'⟩ := hg.rest.eq_cons hc
          have := ih.mpr ⟨hc', firstFit_cons_iff.mp hg.rest⟩
          rw [h, Prod.mk.injEq] at this
          rw [this.1, this.2]
        | cons v line =>
          obtain ⟨rfl, -⟩ := List.cons.inj hc
          exact absurd (goesOn_cons_iff.mp hg).1 hw

/-- **First fit.** The lines that `pack` makes are the one cut of the words that is made by first fit. -/
theorem firstFit_iff {first later : Nat} {ws : List Text} {lines : List (List Text)} :
    lines.flatten = ws ∧ FirstFit later first lines ↔ lines = pack first later ws := by
  cases ws with
  | nil =>
    constructor
    · rintro ⟨hf, h⟩
      cases lines with
      | nil => rfl
      | cons l lines => exact absurd (List.append_eq_nil_iff.mp hf).1 h.1
    · rintro rfl
      exact ⟨rfl, trivial⟩
  | cons w ws =>
    obtain ⟨l, r, hp⟩ : ∃ l r, flow later first (columns w + 1) ws = (l, r) := ⟨_, _, rfl⟩
    rw [pack, hp]
    constructor
    · rintro ⟨hf, h⟩
      obtain ⟨line, rest, rfl, hc⟩ := h.eq_cons hf
      have := flow_eq_iff.mpr ⟨hc, firstFit_cons_iff.mp h⟩
      rw [hp, Prod.mk.injEq] at this
      rw [this.1, this.2]
    · rintro rfl
      obtain ⟨hc, hgo⟩ := flow_eq_iff.mp hp
      exact ⟨by rw [List.flatten_cons, List.cons_append, hc], firstFit_cons_iff.mpr hgo⟩

end SpiceDeck
