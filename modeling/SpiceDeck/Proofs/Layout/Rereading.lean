import SpiceDeck.Proofs.Layout.Wrapping

/-!
# Wrapped statements read back

Reading a wrapped statement back puts its lines together again, but a continuation line loses every
sign at its head and not only its marker. So the statement comes back whole if no later line has a
sign right behind its indent, and otherwise it comes back too short.
-/

namespace SpiceDeck

open Text

/-- Holds of a line with a plus sign or an asterisk right behind the indent of a continuation. -/
def losesSign (line : Text) : Bool :=
  [Marker.plain, Marker.comment].any fun m => ['+', '*'].any fun c =>
    (m.indent ++ [c]).isPrefixOf line

theorem losesSign_indent (m : Marker) (t : Text) :
    losesSign (m.indent ++ t) = true ↔ t.head? = some '+' ∨ t.head? = some '*' := by
  cases m <;> cases t <;>
    simp [losesSign, Marker.indent, Marker.sign, Marker.commentSign, List.isPrefixOf,
      @eq_comm _ '+', @eq_comm _ '*']

theorem continuesStatement_of_losesSign {line : Text} (h : losesSign line = true) :
    continuesStatement line = true := by
  simp only [losesSign, List.any_eq_true, List.isPrefixOf_iff_prefix] at h
  obtain ⟨m, -, c, -, r, rfl⟩ := h
  rw [List.append_assoc]
  exact continuesStatement_indent m _

section
variable {t : Text} (h : ∀ c ∈ t.head?, isBlank c = false) (m : Marker)
include h

theorem continuationBody_eq_self (hl : losesSign (m.indent ++ t) = false) :
    continuationBody t = t := by
  refine continuationBody_eq_iff.mpr ⟨[], rfl, by simp, fun c hc hsign => ?_⟩
  have hs : c ≠ ' ' := by
    rintro rfl
    have := h _ hc
    rw [isBlank_space] at this
    cases this
  rw [← Bool.not_eq_true, losesSign_indent, not_or, Option.mem_def.mp hc] at hl
  simp only [Option.some.injEq] at hl
  simp [continuationSigns, hs, hl] at hsign

omit h in
theorem length_continuationBody_lt (hl : losesSign (m.indent ++ t) = true) :
    (continuationBody t).length < t.length := by
  obtain ⟨signs, he, -, hstop⟩ := continuationBody_eq_iff.mp (Eq.refl (continuationBody t))
  have hne : signs ≠ [] := by
    intro hn
    rw [hn, List.nil_append] at he
    rw [← he] at hstop
    rcases (losesSign_indent m t).mp hl with hc | hc
    · exact hstop _ hc (by decide)
    · exact hstop _ hc (by decide)
  have hlen := congrArg List.length he
  have hpos := List.length_pos_iff.mpr hne
  rw [List.length_append] at hlen
  omega

theorem continuationBody_eq_self_iff :
    continuationBody t = t ↔ losesSign (m.indent ++ t) = false := by
  refine ⟨fun he => ?_, continuationBody_eq_self h m⟩
  rw [← Bool.not_eq_true]
  intro hl
  have := length_continuationBody_lt m hl
  rw [he] at this
  exact absurd this (Nat.lt_irrefl _)

end

/-! ## Pieces put together -/

section
variable {α β : Type} {f g : α → List β} {xs : List α}
    (h : ∀ x ∈ xs, f x = g x ∨ (f x).length < (g x).length)
include h

theorem length_flatMap_le : (xs.flatMap f).length ≤ (xs.flatMap g).length := by
  induction xs with
  | nil => simp
  | cons x xs ih =>
    have := ih fun y hy => h y (List.mem_cons_of_mem _ hy)
    have hx : (f x).length ≤ (g x).length := by
      rcases h x (List.mem_cons_self ..) with he | hl
      · exact Nat.le_of_eq (congrArg List.length he)
      · exact Nat.le_of_lt hl
    simp only [List.flatMap_cons, List.length_append]
    omega

/-- What one shorter piece lacks, the others never make up for. -/
theorem flatMap_eq_iff : xs.flatMap f = xs.flatMap g ↔ ∀ x ∈ xs, f x = g x := by
  induction xs with
  | nil => simp
  | cons x xs ih =>
    have hxs : ∀ y ∈ xs, f y = g y ∨ (f y).length < (g y).length :=
      fun y hy => h y (List.mem_cons_of_mem _ hy)
    have ih := ih hxs
    rw [List.flatMap_cons, List.flatMap_cons, List.forall_mem_cons]
    rcases h x (List.mem_cons_self ..) with he | hl
    · simp only [he, List.append_cancel_left_eq, true_and, ih]
    · have hlen := length_flatMap_le hxs
      refine iff_of_false (fun he => ?_) (fun hc => ?_)
      · have := congrArg List.length he
        simp only [List.length_append] at this
        omega
      · rw [hc.1] at hl
        exact absurd hl (Nat.lt_irrefl _)

end

/-! ## Reading back -/

/-- What a statement is when its physical lines are read back. -/
def reread (width : LineWidth) (s : Text) : Text :=
  match wrapStatement width s with
  | [] => []
  | l :: ks => joined l ks

section
variable {s : Text} (c : Cut s)

theorem normalize_of_cut :
    Text.normalize s = c.head ++ c.later.flatMap fun ws => ' ' :: joinWords ws := by
  rw [Text.normalize, c.words_eq, ← List.cons_append, joinWords_append_flatten (by simp) c.ne_nil]
  rfl

theorem joined_of_cut :
    joined c.head c.tail =
      c.head ++ c.later.flatMap fun ws => ' ' :: continuationBody (joinWords ws) := by
  simp only [joined, Cut.tail, List.flatMap_map, continuationLine, continuationBody_indent,
    joinSign]

theorem words_joined_of_cut : (words (joined c.head c.tail)).head? = some c.first := by
  rw [joined_of_cut, Cut.head, joinWords_cons_eq, List.append_assoc, words_append c.isWord_first,
    List.head?_cons]
  intro b hb
  rw [List.head?_append, Option.mem_def, Option.or_eq_some_iff] at hb
  rcases hb with hb | ⟨-, hb⟩
  · exact head?_flatMap_space _ c.more b hb
  · exact head?_flatMap_space _ c.later b hb

end

theorem reread_of_cut {width : LineWidth} {s : Text} {c : Cut s}
    (h : wrapStatement width s = c.head :: c.tail) :
    reread width s = joined c.head c.tail := by
  rw [reread, h]

/-- **A statement read back.** It comes back whole just when no later line loses a sign. -/
theorem reread_eq_normalize_iff (width : LineWidth) (s : Text) :
    reread width s = Text.normalize s ↔ ∀ k ∈ (wrapStatement width s).tail, losesSign k = false := by
  by_cases hs : words s = []
  · rw [reread, wrapStatement_nil hs, Text.normalize, hs]
    simp
  obtain ⟨c, hc⟩ := exists_cut hs width
  have hhead : ∀ ws ∈ c.later, ∀ b ∈ (joinWords ws).head?, isBlank b = false := fun ws hws =>
    (isPhysical_joinWords (c.ne_nil ws hws) (c.isWord_later hws)).trimmed.head
  rw [reread_of_cut hc, normalize_of_cut c, joined_of_cut c, List.append_cancel_left_eq, hc,
    List.tail_cons, Cut.tail, List.forall_mem_map, flatMap_eq_iff]
  · refine forall₂_congr fun ws hws => ?_
    rw [List.cons_inj_right]
    exact continuationBody_eq_self_iff (hhead ws hws) _
  · intro ws hws
    by_cases hl : losesSign (continuationLine (Marker.ofStatement s) ws) = true
    · exact .inr (Nat.succ_lt_succ (length_continuationBody_lt _ hl))
    · rw [continuationBody_eq_self (hhead ws hws) _ (Bool.eq_false_iff.mpr hl)]
      exact .inl rfl

theorem head?_words_reread (width : LineWidth) (s : Text) :
    (words (reread width s)).head? = (words s).head? := by
  by_cases hs : words s = []
  · rw [reread, wrapStatement_nil hs, hs]
    simp
  obtain ⟨c, hc⟩ := exists_cut hs width
  rw [reread_of_cut hc, words_joined_of_cut c, c.words_eq, List.head?_cons]

/-! ## Wrapped statements in a deck -/

theorem exists_wrapped {s : Text} (hs : IsStatement s) (width : LineWidth) :
    ∃ l ks, wrapStatement width s = l :: ks ∧ IsStatement l ∧ isCommentLine l = isCommentLine s ∧
      ∀ k ∈ ks, continuesStatement k = true := by
  obtain ⟨w, ws, hw, -⟩ := hs.exists_words
  obtain ⟨c, hc⟩ := exists_cut (by rw [hw]; simp) width
  refine ⟨c.head, c.tail, hc, c.isStatement_head hs, ?_,
    fun k hk => c.continuesStatement_of_mem_tail hk⟩
  rw [isCommentLine, c.head?_head hs, isCommentLine]

/-- Whether a statement takes more than one line. -/
def takesMore (width : LineWidth) (s : Text) : Bool := 1 < (wrapStatement width s).length

section
variable {policy : CommentPolicy} {width : LineWidth} {s l : Text} {ks : List Text}

theorem yields_rest (hl : wrapStatement width s = l :: ks)
    (hk : ∀ k ∈ ks, continuesStatement k = true) (held ls : List Text) :
    yields policy l false held (ks ++ ls) =
      yields policy (reread width s) (takesMore width s) held ls := by
  rw [yields_continuations hk, reread, takesMore, hl]
  cases ks <;> simp

/-- A wrapped statement that is not held ends what is in flight and is read back by itself. -/
theorem yields_wrapped (hs : IsStatement s) {p : Text} {continuing : Bool} {held : List Text}
    (h : (continuing && policy == .hold && isCommentLine s) = false) (ls : List Text) :
    yields policy p continuing held (wrapStatement width s ++ ls) =
      p :: (held ++ yields policy (reread width s) (takesMore width s) [] ls) := by
  obtain ⟨l, ks, hl, hst, hc, hk⟩ := exists_wrapped hs width
  rw [← yields_rest hl hk, hl, List.cons_append, yields_start hst.begins (by rwa [hc])]

theorem statements_wrapped {options : Options} (hs : IsStatement s) (ss : List Text) :
    statements options ((s :: ss).flatMap (wrapStatement width)) =
      yields options.comments (reread width s) (takesMore width s) [] (ss.flatMap (wrapStatement width)) := by
  obtain ⟨l, ks, hl, hst, -, hk⟩ := exists_wrapped hs width
  have hlines : trimmedLines ((s :: ss).flatMap (wrapStatement width)) =
      l :: (ks ++ ss.flatMap (wrapStatement width)) := by
    rw [trimmedLines_eq_self fun k hk => (isPhysical_of_mem_flatMap hk).trimmed, List.flatMap_cons,
      hl, List.cons_append]
  rw [statements_start hlines hst.begins, yields_rest hl hk]

/-- **Statement boundaries survive.** Under `split` every statement is read back by itself. -/
theorem yields_split {ss : List Text} (hs : ∀ s ∈ ss, IsStatement s) :
    ∀ {p : Text} {continuing : Bool} {held : List Text},
      yields .split p continuing held (ss.flatMap (wrapStatement width)) =
        p :: (held ++ ss.map (reread width)) := by
  induction ss with
  | nil => simp [yields]
  | cons s ss ih =>
    intro p continuing held
    rw [List.flatMap_cons, yields_wrapped (hs s (List.mem_cons_self ..)) (by simp),
      ih fun t ht => hs t (List.mem_cons_of_mem _ ht)]
    rfl

end

end SpiceDeck
