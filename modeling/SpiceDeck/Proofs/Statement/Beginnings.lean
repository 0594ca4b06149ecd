import SpiceDeck.Proofs.Statement.Run

/-!
# How lines and statements begin

The first word decides whether a line continues a statement and which marker a statement has. A deck
whose first line begins a statement gives only texts that begin so (`StartsStatement.cases`).
-/

namespace SpiceDeck

open Text

/-! ## Continuations -/

theorem continuesStatement_indent (m : Marker) (t : Text) :
    continuesStatement (m.indent ++ t) = true := by
  cases m <;> simp [continuesStatement, Marker.indent, Marker.sign, List.isPrefixOf]

theorem continuationBody_indent (m : Marker) (t : Text) :
    continuationBody (m.indent ++ t) = continuationBody t := by
  obtain ⟨signs, ht, hsigns, hstop⟩ := continuationBody_eq_iff.mp (Eq.refl (continuationBody t))
  have hindent : ∀ c ∈ m.indent, c ∈ continuationSigns := by
    cases m <;> simp [Marker.indent, Marker.sign, Marker.commentSign, continuationSigns]
  refine continuationBody_eq_iff.mpr ⟨m.indent ++ signs, ?_, ?_, hstop⟩
  · rw [List.append_assoc, ← ht]
  · exact List.forall_mem_append.mpr ⟨hindent, hsigns⟩

/-- What follows a word that is no plus sign cannot make a continuation of it. -/
theorem continuesStatement_append {w : Text} (hw : w ≠ []) {r : Text}
    (hr : ∀ b ∈ r.head?, b ≠ '+') :
    continuesStatement (w ++ r) = continuesStatement w := by
  match w, r with
  | [], _ => exact absurd rfl hw
  | [c], [] => simp
  | [c], b :: r =>
    have hb : ¬ '+' = b := Ne.symm (hr b rfl)
    simp [continuesStatement, Marker.sign, List.isPrefixOf, hb]
  | c :: d :: w, r => simp [continuesStatement, Marker.sign, List.isPrefixOf]

/-! ## Statements -/

/-- A text that begins as a statement does: not with a blank, and not as a continuation. -/
structure IsStatement (s : Text) : Prop where
  ne_nil : s ≠ []
  head : ∀ c ∈ s.head?, isBlank c = false
  begins : continuesStatement s = false

theorem isStatement_of_trimmed {l : Text} (h : IsTrimmed l) (hl : continuesStatement l = false) :
    IsStatement l :=
  ⟨h.2, h.head, hl⟩

theorem IsStatement.append {s : Text} (h : IsStatement s) (t : Text) :
    IsStatement (s ++ joinSign :: t) where
  ne_nil := by simp
  head := by
    obtain ⟨c, r, rfl⟩ := List.exists_cons_of_ne_nil h.ne_nil
    exact h.head
  begins := by
    rw [continuesStatement_append h.ne_nil, h.begins]
    simp [joinSign]

theorem continuesStatement_of_prefix {p s : Text} (h : p <+: s) (hp : continuesStatement p = true) :
    continuesStatement s = true := by
  simp only [continuesStatement, Bool.or_eq_true, List.isPrefixOf_iff_prefix] at hp ⊢
  rcases hp with hp | hp
  · exact .inl (hp.trans h)
  · exact .inr (hp.trans h)

theorem isStatement_of_mem_yields {policy : CommentPolicy} {ls : List Text}
    (hl : ∀ l ∈ ls, IsTrimmed l) {p : Text} {continuing : Bool} {held : List Text}
    (hp : IsStatement p) (hh : ∀ s ∈ held, IsStatement s) :
    ∀ s ∈ yields policy p continuing held ls, IsStatement s :=
  forall_mem_yields (fun l hm hc => isStatement_of_trimmed (hl l hm) hc)
    (fun _ l _ hp => hp.append (continuationBody l)) hp hh

/-- The first line that is not blank, if there is one, begins a statement. -/
def StartsStatement (ls : List Text) : Prop :=
  (trimmedLines ls).head?.any continuesStatement = false

instance (ls : List Text) : Decidable (StartsStatement ls) := inferInstanceAs (Decidable (_ = _))

/-- What such a deck gives: what a blank deck gives, or a list of statements. -/
theorem StartsStatement.cases {ls : List Text} (h : StartsStatement ls) (options : Options) :
    trimmedLines ls = [] ∨ ∃ s ss, statements options ls = s :: ss ∧ ∀ x ∈ s :: ss, IsStatement x := by
  cases hl : trimmedLines ls with
  | nil => exact .inl rfl
  | cons l rest =>
    right
    rw [StartsStatement, hl] at h
    have htrim : ∀ m ∈ l :: rest, IsTrimmed m := fun m hm => isTrimmed_of_mem_trimmedLines (hl ▸ hm)
    have hst : ∀ x ∈ statements options ls, IsStatement x := by
      rw [statements_start hl h]
      exact isStatement_of_mem_yields (fun m hm => htrim m (List.mem_cons_of_mem _ hm))
        (isStatement_of_trimmed (htrim l (List.mem_cons_self ..)) h) (by simp)
    cases hs : statements options ls with
    | nil =>
      rw [statements_start hl h] at hs
      exact absurd hs yields_ne_nil
    | cons s ss => exact ⟨s, ss, rfl, hs ▸ hst⟩

/-! ## The first word -/

theorem IsStatement.exists_words {s : Text} (h : IsStatement s) :
    ∃ w ws, words s = w :: ws ∧ IsWord w ∧ continuesStatement w = false ∧ w.head? = s.head? := by
  obtain ⟨w, r, hs, hw, hr⟩ := exists_word h.ne_nil h.head
  refine ⟨w, words r, by rw [hs, words_append hw hr], hw, ?_, ?_⟩
  · have hb := h.begins
    rw [hs, continuesStatement_append hw.1] at hb
    · exact hb
    · rintro b hb rfl
      have := hr _ hb
      revert this
      decide
  · obtain ⟨c, w, rfl⟩ := List.exists_cons_of_ne_nil hw.1
    rw [hs]
    rfl

/-- A statement stays one when it is trimmed. -/
theorem IsStatement.trim {s : Text} (h : IsStatement s) : IsStatement (Text.trim s) := by
  have hp : Text.trim s <+: s := by
    have := trim_prefix_trimLeft s
    rwa [trimLeft, dropWhile_eq_self h.head] at this
  refine ⟨fun hn => ?_, head?_trim s, ?_⟩
  · obtain ⟨w, ws, hw, -⟩ := h.exists_words
    have hs := words_trim s
    rw [hn, words_nil, hw] at hs
    cases hs
  · rw [← Bool.not_eq_true]
    intro hc
    have hs := continuesStatement_of_prefix hp hc
    rw [h.begins] at hs
    cases hs

theorem trimmedLines_of_statements {ss : List Text} (h : ∀ s ∈ ss, IsStatement s) :
    trimmedLines ss = ss.map Text.trim := by
  rw [trimmedLines, List.filter_eq_self]
  intro l hl
  obtain ⟨s, hs, rfl⟩ := List.mem_map.mp hl
  simpa using (h s hs).trim.ne_nil

/-- Statements that are read as lines come back trimmed, each by itself. -/
theorem statements_of_statements (options : Options) {ss : List Text} (hne : ss ≠ [])
    (h : ∀ s ∈ ss, IsStatement s) : statements options ss = ss.map Text.trim := by
  have ht := trimmedLines_of_statements h
  rw [← ht]
  refine statements_begun (by simpa [ht] using hne) fun l hl => ?_
  rw [ht] at hl
  obtain ⟨s, hs, rfl⟩ := List.mem_map.mp hl
  exact (h s hs).trim.begins

theorem ofStatement_congr {s t : Text} (h : (words s).head? = (words t).head?) :
    Marker.ofStatement s = Marker.ofStatement t := by
  unfold Marker.ofStatement
  rw [head?_trimLeft, head?_trimLeft, h]

end SpiceDeck
