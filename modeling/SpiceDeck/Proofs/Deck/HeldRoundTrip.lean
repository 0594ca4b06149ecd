import SpiceDeck.Proofs.Deck.RoundTrip
import SpiceDeck.Proofs.Statement.Interruptions

/-!
# Reflow and back with held comments

Under `hold` a reflow can be read back as long as no comment of several lines waits for a statement:
its first line is held, and its continuations go to the statement in flight instead.
-/

namespace SpiceDeck

open Text Utf8

/-- A comment of several lines. -/
def LongComment (width : LineWidth) (s : Text) : Prop :=
  isCommentLine s = true ∧ takesMore width s = true

/-- Somewhere a comment of several lines comes behind a statement of several lines, with nothing but
comments between. -/
def Entangles (width : LineWidth) (ss : List Text) : Prop :=
  ∃ s mid t, s :: (mid ++ [t]) <:+: ss ∧ takesMore width s = true ∧
    (∀ m ∈ mid, isCommentLine m = true) ∧ LongComment width t

def ToLongComment (width : LineWidth) (ss : List Text) : Prop :=
  Reaches (isCommentLine · = true) (LongComment width) ss

section
variable {width : LineWidth} {s : Text} {ss : List Text}

theorem not_entangles_nil : ¬ Entangles width [] := by
  rintro ⟨s, mid, t, h, -⟩
  simp at h

theorem entangles_cons :
    Entangles width (s :: ss) ↔
      (takesMore width s = true ∧ ToLongComment width ss) ∨ Entangles width ss := by
  constructor
  · rintro ⟨x, mid, t, h, hx, hm, ht⟩
    rcases cons_infix_cons.mp h with ⟨rfl, hp⟩ | hi
    · exact .inl ⟨hx, mid, t, hp, hm, ht⟩
    · exact .inr ⟨x, mid, t, hi, hx, hm, ht⟩
  · rintro (⟨hs, mid, t, hp, hm, ht⟩ | ⟨x, mid, t, hi, hx, hm, ht⟩)
    · exact ⟨s, mid, t, cons_infix_cons.mpr (.inl ⟨rfl, hp⟩), hs, hm, ht⟩
    · exact ⟨x, mid, t, cons_infix_cons.mpr (.inr hi), hx, hm, ht⟩

/-! ## Reading back -/

theorem yields_short_comment (hs : IsStatement s) (hc : isCommentLine s = true)
    (hm : takesMore width s = false) (p : Text) (held ls : List Text) :
    yields .hold p true held (wrapStatement width s ++ ls) =
      yields .hold p true (held ++ [reread width s]) ls := by
  obtain ⟨l, ks, hl, hst, hcl, -⟩ := exists_wrapped hs width
  obtain rfl : ks = [] := by
    rw [takesMore, hl] at hm
    simpa using hm
  have hr : reread width s = l := by
    rw [reread, hl]
    exact joined_nil l
  rw [hr, hl, List.cons_append, yields_held hst.begins (by simp [hcl, hc]), List.nil_append]

/-- A comment of several lines waits with its first line only; the others lengthen the statement in
flight. -/
theorem yields_long_comment (hs : IsStatement s) (hc : LongComment width s) (p : Text)
    (held ls rest : List Text) :
    yields .hold p true held (wrapStatement width s ++ ls) ≠ p :: rest := by
  obtain ⟨l, ks, hl, hst, hcl, hk⟩ := exists_wrapped hs width
  have hks : ks ≠ [] := by
    rintro rfl
    have := hc.2
    simp [takesMore, hl] at this
  obtain ⟨k, ks, rfl⟩ := List.exists_cons_of_ne_nil hks
  rw [hl, List.cons_append, yields_held hst.begins (by simp [hcl, hc.1]), yields_continuations hk]
  obtain ⟨e, more, he⟩ :=
    exists_yields .hold (joined p (k :: ks)) (true || !(k :: ks).isEmpty) (held ++ [l]) ls
  rw [he, joined, List.flatMap_cons]
  intro h
  have := congrArg List.length (List.cons.inj h).1
  simp only [List.length_append, List.length_cons] at this
  omega

/-- **Held comments read back.** With a statement in flight, every wrapped statement comes back by
itself just when no comment of several lines waits for a statement. -/
theorem yields_hold_iff (hs : ∀ s ∈ ss, IsStatement s) :
    ∀ {p : Text} {continuing : Bool} {held : List Text},
      yields .hold p continuing held (ss.flatMap (wrapStatement width)) =
        p :: (held ++ ss.map (reread width)) ↔
        ¬ ((continuing = true ∧ ToLongComment width ss) ∨ Entangles width ss) := by
  induction ss with
  | nil => simp [yields, not_entangles_nil, ToLongComment, not_reaches_nil]
  | cons s ss ih =>
    intro p continuing held
    have hst := hs s (List.mem_cons_self ..)
    have ih := @ih fun x hx => hs x (List.mem_cons_of_mem _ hx)
    have hto : ToLongComment width (s :: ss) ↔
        LongComment width s ∨ isCommentLine s = true ∧ ToLongComment width ss :=
      reaches_cons
    rw [List.flatMap_cons, List.map_cons, hto, entangles_cons]
    -- `s` waits, or it ends the statement in flight
    by_cases hw : continuing = true ∧ isCommentLine s = true
    · obtain ⟨rfl, hc⟩ := hw
      by_cases hm : takesMore width s = true
      · have hl : LongComment width s := ⟨hc, hm⟩
        refine iff_of_false (yields_long_comment hst hl p held _ _) ?_
        simp [hl]
      · have hl : ¬ LongComment width s := fun h => hm h.2
        have hsplit : held ++ reread width s :: ss.map (reread width) =
            held ++ [reread width s] ++ ss.map (reread width) := by simp
        rw [yields_short_comment hst hc (by simpa using hm), hsplit, ih]
        simp [hc, hm, hl]
    · have hstart : (continuing && CommentPolicy.hold == .hold && isCommentLine s) = false := by
        simpa using hw
      have hl : ¬ (continuing = true ∧
          (LongComment width s ∨ isCommentLine s = true ∧ ToLongComment width ss)) := by
        rintro ⟨h, h' | h'⟩
        · exact hw ⟨h, h'.1⟩
        · exact hw ⟨h, h'.1⟩
      rw [yields_wrapped hst hstart, List.cons_inj_right, List.append_cancel_left_eq,
        or_iff_right hl]
      exact ih

end

/-! ## Decks -/

/-- No word of the statement but the first begins with a sign that a continuation line could lose. -/
def SignsFirst (s : Text) : Prop := ∀ w ∈ (words s).tail, w.head? ≠ some '+' ∧ w.head? ≠ some '*'

instance (s : Text) : Decidable (SignsFirst s) :=
  inferInstanceAs (Decidable (∀ w ∈ (words s).tail, _))

theorem reread_of_signsFirst (width : LineWidth) {s : Text} (h : SignsFirst s) :
    reread width s = Text.normalize s := by
  rw [reread_eq_normalize_iff]
  by_cases hs : words s = []
  · rw [wrapStatement_nil hs]
    simp
  obtain ⟨c, hc⟩ := exists_cut hs width
  rw [hc, List.tail_cons, Cut.tail, List.forall_mem_map]
  intro ws hws
  obtain ⟨w, vs, rfl⟩ := List.exists_cons_of_ne_nil (c.ne_nil ws hws)
  have hw := h w (by
    rw [c.words_eq, List.tail_cons]
    exact List.mem_append_right _ (List.mem_flatten_of_mem hws (List.mem_cons_self ..)))
  rw [← Bool.not_eq_true, continuationLine, losesSign_indent,
    head?_joinWords (c.isWord_later hws w (List.mem_cons_self ..)), not_or]
  exact hw

/-- **Reflow and back under `hold`.** Unwrapping what a reflow wrote gives the statements of the
text, with single spaces, just when no comment of several lines comes behind a statement of several
lines with nothing but comments between. -/
theorem hold_reflow_faithful_iff (width : LineWidth) (emptyDeck : EmptyDeck) {source : Source}
    {t : Text} (ht : source.text? = some t) (hs : StartsStatement (lines t))
    (hw : ∀ s ∈ statementsOfText ⟨.hold, emptyDeck⟩ t, SignsFirst s) :
    ∃ written, ReflowsTo width ⟨.hold, emptyDeck⟩ source written ∧
      (statementsOfText ⟨.hold, emptyDeck⟩ written =
        (statementsOfText ⟨.hold, emptyDeck⟩ t).map Text.normalize ↔
        ¬ Entangles width (statementsOfText ⟨.hold, emptyDeck⟩ t)) := by
  refine ⟨_, reflowsTo_ofLines width ⟨.hold, emptyDeck⟩ ht, ?_⟩
  rw [← List.map_congr_left fun s hm => reread_of_signsFirst width (hw s hm)]
  rcases hs.cases ⟨.hold, emptyDeck⟩ with hb | ⟨s, ss, he, hst⟩
  · obtain ⟨hw, hn⟩ := statementsOfText_blank width ⟨.hold, emptyDeck⟩ hb
    refine iff_of_true hw ?_
    rintro ⟨s, mid, t', hi, hm, -⟩
    rw [hn s (hi.subset (List.mem_cons_self ..)), takesMore, wrapStatement_nil words_nil] at hm
    simp at hm
  · have he' : statementsOfText ⟨.hold, emptyDeck⟩ t = s :: ss := he
    rw [statementsOfText_cons width _ he' (hst s (List.mem_cons_self ..)), he', entangles_cons]
    exact yields_hold_iff fun x hx => hst x (List.mem_cons_of_mem _ hx)

/-- The comment behind the long statement has one line, so nothing of it is lost. -/
theorem hold_reflow_faithful_iff_comment :
    (Source.ofBytes (encode "R1 1 0\n* in".toList)).text? = some "R1 1 0\n* in".toList ∧
      StartsStatement (lines "R1 1 0\n* in".toList) ∧
      (∀ s ∈ statementsOfText ⟨.hold, .nothing⟩ "R1 1 0\n* in".toList, SignsFirst s) ∧
      ReflowsTo ⟨4, by decide⟩ ⟨.hold, .nothing⟩ (.ofBytes (encode "R1 1 0\n* in".toList))
        "R1 1\n+ 0\n* in\n".toList ∧
      (statementsOfText ⟨.hold, .nothing⟩ "R1 1 0\n* in".toList).map Text.normalize =
        ["R1 1 0".toList, "* in".toList] ∧
      statementsOfText ⟨.hold, .nothing⟩ "R1 1\n+ 0\n* in\n".toList =
        ["R1 1 0".toList, "* in".toList] ∧
      ¬ Entangles ⟨4, by decide⟩ (statementsOfText ⟨.hold, .nothing⟩ "R1 1 0\n* in".toList) := by
  have ht := Source.text?_ofBytes_encode "R1 1 0\n* in".toList
  have hs : StartsStatement (lines "R1 1 0\n* in".toList) := by decide
  have hw : ∀ s ∈ statementsOfText ⟨.hold, .nothing⟩ "R1 1 0\n* in".toList, SignsFirst s := by decide
  obtain ⟨written, hto, hiff⟩ := hold_reflow_faithful_iff ⟨4, by decide⟩ .nothing ht hs hw
  obtain rfl : written = "R1 1\n+ 0\n* in\n".toList :=
    (hto.unique (reflowsTo_ofLines _ _ ht)).trans (by decide)
  have hold : (statementsOfText ⟨.hold, .nothing⟩ "R1 1 0\n* in".toList).map Text.normalize =
      ["R1 1 0".toList, "* in".toList] := by decide
  have hnew : statementsOfText ⟨.hold, .nothing⟩ "R1 1\n+ 0\n* in\n".toList =
      ["R1 1 0".toList, "* in".toList] := by decide
  exact ⟨ht, hs, hw, hto, hold, hnew, hiff.mp (hnew.trans hold.symm)⟩

/-- The second line of a comment ends up in the statement before it. -/
theorem held_comment_entangled :
    (Source.ofBytes (encode "R1 1 0\n* in V".toList)).text? = some "R1 1 0\n* in V".toList ∧
      StartsStatement (lines "R1 1 0\n* in V".toList) ∧
      (∀ s ∈ statementsOfText ⟨.hold, .emptyLine⟩ "R1 1 0\n* in V".toList, SignsFirst s) ∧
      ReflowsTo ⟨4, by decide⟩ ⟨.hold, .emptyLine⟩ (.ofBytes (encode "R1 1 0\n* in V".toList))
        "R1 1\n+ 0\n* in\n*+ V\n".toList ∧
      statementsOfText ⟨.hold, .emptyLine⟩ "R1 1\n+ 0\n* in\n*+ V\n".toList =
        ["R1 1 0 V".toList, "* in".toList] ∧
      (statementsOfText ⟨.hold, .emptyLine⟩ "R1 1 0\n* in V".toList).map Text.normalize =
        ["R1 1 0".toList, "* in V".toList] :=
  ⟨Source.text?_ofBytes_encode _, by decide, by decide,
    reflowsTo_ofLines ⟨4, by decide⟩ ⟨.hold, .emptyLine⟩
      (Source.text?_ofBytes_encode "R1 1 0\n* in V".toList),
    by decide, by decide⟩

end SpiceDeck
