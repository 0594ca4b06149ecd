import SpiceDeck.Proofs.Statement.Beginnings

/-!
# Comments inside statements

Under `hold` a comment waits if the statement in flight has a continuation already. Such a comment
changes no statement; one that stands before the first continuation takes it over
(`hold_ignores_comments_iff`).
-/

namespace SpiceDeck

open Text

/-- A comment that continues nothing. -/
def isLoneComment (l : Text) : Bool := isCommentLine l && !continuesStatement l

/-- The first line of a statement that is no comment. -/
def beginsPlain (l : Text) : Bool := !isCommentLine l && !continuesStatement l

theorem isLoneComment_iff {l : Text} :
    isLoneComment l = true ↔ isCommentLine l = true ∧ continuesStatement l = false := by
  simp [isLoneComment]

theorem beginsPlain_iff {l : Text} :
    beginsPlain l = true ↔ isCommentLine l = false ∧ continuesStatement l = false := by
  simp [beginsPlain]

theorem line_cases (l : Text) :
    continuesStatement l = true ∨ isLoneComment l = true ∨ beginsPlain l = true := by
  unfold isLoneComment beginsPlain
  cases continuesStatement l <;> cases isCommentLine l <;> simp

/-! ## Runs of lines -/

section
variable {α : Type} {Q R : α → Prop} {l : α} {ls : List α}

/-- First come elements with `Q`, if any, and then one with `R`. -/
def Reaches (Q R : α → Prop) (ls : List α) : Prop :=
  ∃ mid t, mid ++ [t] <+: ls ∧ (∀ m ∈ mid, Q m) ∧ R t

theorem not_reaches_nil : ¬ Reaches Q R [] := by
  rintro ⟨mid, t, h, -⟩
  simp at h

theorem reaches_cons : Reaches Q R (l :: ls) ↔ R l ∨ (Q l ∧ Reaches Q R ls) := by
  constructor
  · rintro ⟨mid, t, h, hq, hr⟩
    cases mid with
    | nil =>
      rw [List.nil_append, List.cons_prefix_cons] at h
      exact .inl (h.1 ▸ hr)
    | cons m mid =>
      rw [List.cons_append, List.cons_prefix_cons] at h
      rw [List.forall_mem_cons] at hq
      exact .inr ⟨h.1 ▸ hq.1, mid, t, h.2, hq.2, hr⟩
  · rintro (hr | ⟨hq, mid, t, h, hm, hr⟩)
    · exact ⟨[], l, by simp, by simp, hr⟩
    · exact ⟨l :: mid, t, by simpa using h, by simpa [hq] using hm, hr⟩

theorem cons_infix_cons {s : α} {p : List α} :
    s :: p <:+: l :: ls ↔ (s = l ∧ p <+: ls) ∨ s :: p <:+: ls := by
  rw [List.infix_cons_iff, List.cons_prefix_cons]

end

/-- Somewhere comments part the first line of a statement from its first continuation. -/
def CutsOff (ls : List Text) : Prop :=
  ∃ s cs k, s :: (cs ++ [k]) <:+: ls ∧ beginsPlain s = true ∧ cs ≠ [] ∧
    (∀ c ∈ cs, isLoneComment c = true) ∧ continuesStatement k = true

def ToContinuation (ls : List Text) : Prop :=
  Reaches (isLoneComment · = true) (continuesStatement · = true) ls

theorem not_cutsOff_nil : ¬ CutsOff [] := by
  rintro ⟨s, cs, k, h, -⟩
  simp at h

theorem cutsOff_cons (l : Text) (ls : List Text) :
    CutsOff (l :: ls) ↔
      (beginsPlain l = true ∧ (∃ c ∈ ls.head?, isLoneComment c = true) ∧ ToContinuation ls) ∨
        CutsOff ls := by
  constructor
  · rintro ⟨s, cs, k, h, hs, hne, hc, hk⟩
    rcases cons_infix_cons.mp h with ⟨rfl, hp⟩ | hi
    · obtain ⟨c, cs, rfl⟩ := List.exists_cons_of_ne_nil hne
      refine .inl ⟨hs, ⟨c, ?_, hc c (List.mem_cons_self ..)⟩, c :: cs, k, hp, hc, hk⟩
      obtain ⟨r, rfl⟩ := hp
      rfl
    · exact .inr ⟨s, cs, k, hi, hs, hne, hc, hk⟩
  · rintro (⟨hs, ⟨c, hh, hc⟩, cs, k, hp, hcs, hk⟩ | ⟨s, cs, k, hi, hs, hne, hc, hk⟩)
    · refine ⟨l, cs, k, cons_infix_cons.mpr (.inl ⟨rfl, hp⟩), hs, ?_, hcs, hk⟩
      rintro rfl
      obtain ⟨r, rfl⟩ := hp
      cases hh
      simp [isLoneComment, hk] at hc
    · exact ⟨s, cs, k, cons_infix_cons.mpr (.inr hi), hs, hne, hc, hk⟩

theorem cutsOff_cons_of_not {l : Text} (h : beginsPlain l = false) (ls : List Text) :
    CutsOff (l :: ls) ↔ CutsOff ls := by
  rw [cutsOff_cons]
  simp [h]

/-! ## With comments and without -/

def plainOnes (ss : List Text) : List Text := ss.filter fun s => !isCommentLine s

/-- The lines without the comments that continue nothing. -/
def withoutComments (ls : List Text) : List Text := ls.filter fun l => !isLoneComment (trim l)

theorem isCommentLine_append (p t : Text) :
    isCommentLine (p ++ joinSign :: t) = isCommentLine p := by
  cases p with
  | nil => rfl
  | cons c p => rfl

theorem plainOnes_cons_of_plain {s : Text} (h : isCommentLine s = false) (ss : List Text) :
    plainOnes (s :: ss) = s :: plainOnes ss := by
  simp [plainOnes, h]

theorem plainOnes_append_of_comments {cs : List Text} (h : ∀ c ∈ cs, isCommentLine c = true)
    (ss : List Text) :
    plainOnes (cs ++ ss) = plainOnes ss := by
  rw [plainOnes, List.filter_append, List.filter_eq_nil_iff.mpr (by simpa using h)]
  rfl

theorem withoutComments_skip {l : Text} (h : isLoneComment (trim l) = true) (ls : List Text) :
    withoutComments (l :: ls) = withoutComments ls :=
  List.filter_cons_of_neg (by simp [h])

theorem withoutComments_keep {l : Text} (h : isLoneComment (trim l) = false) (ls : List Text) :
    withoutComments (l :: ls) = l :: withoutComments ls :=
  List.filter_cons_of_pos (by simp [h])

theorem trimmedLines_withoutComments (ls : List Text) :
    trimmedLines (withoutComments ls) = withoutComments (trimmedLines ls) := by
  induction ls with
  | nil => rfl
  | cons l ls ih =>
    rw [trimmedLines_cons l ls]
    by_cases hb : trim l = []
    · have hl : isLoneComment (trim l) = false := by rw [hb]; rfl
      rw [if_pos hb, withoutComments_keep hl, trimmedLines_cons, if_pos hb, ih]
    rw [if_neg hb]
    by_cases hl : isLoneComment (trim l) = true
    · rw [withoutComments_skip hl, withoutComments_skip (by rwa [trim_trim]), ih]
    · rw [Bool.not_eq_true] at hl
      rw [withoutComments_keep hl, withoutComments_keep (by rwa [trim_trim]), trimmedLines_cons,
        if_neg hb, ih]

/-- When lines give the same plain statements with their comments and without, by what is in flight: a
statement with a continuation; one without; or a comment, right after a statement without. -/
structure Agrees (ls : List Text) : Prop where
  continued : ∀ {p : Text} {held : List Text},
    isCommentLine p = false → (∀ c ∈ held, isCommentLine c = true) →
    (plainOnes (yields .hold p true held ls) = yields .hold p true [] (withoutComments ls) ↔
      ¬ CutsOff ls)
  fresh : ∀ {p : Text}, isCommentLine p = false →
    (plainOnes (yields .hold p false [] ls) = yields .hold p false [] (withoutComments ls) ↔
      ¬ ((∃ c ∈ ls.head?, isLoneComment c = true) ∧ ToContinuation ls) ∧ ¬ CutsOff ls)
  interrupted : ∀ {p q : Text}, isCommentLine p = false → isCommentLine q = true →
    (p :: plainOnes (yields .hold q false [] ls) = yields .hold p false [] (withoutComments ls) ↔
      ¬ ToContinuation ls ∧ ¬ CutsOff ls)

theorem agrees_nil : Agrees [] where
  continued {p held} hp hh := by
    have : plainOnes held = [] := by
      rw [← List.append_nil held, plainOnes_append_of_comments hh]
      rfl
    simp [yields, withoutComments, plainOnes_cons_of_plain hp, this, not_cutsOff_nil]
  fresh {p} hp := by
    simp [yields, withoutComments, plainOnes, hp, not_cutsOff_nil]
  interrupted {p q} hp hq := by
    simp [yields, withoutComments, plainOnes, hq, not_cutsOff_nil, ToContinuation, not_reaches_nil]

section
variable {l : Text} {ls : List Text} (ht : trim l = l) (h : Agrees ls)
include ht h

theorem Agrees.continuation (hk : continuesStatement l = true) : Agrees (l :: ls) := by
  have hl : isLoneComment l = false := by simp [isLoneComment, hk]
  have hw := withoutComments_keep (by rwa [ht]) ls
  have hcut : CutsOff (l :: ls) ↔ CutsOff ls := cutsOff_cons_of_not (by simp [beginsPlain, hk]) ls
  refine ⟨fun hp hh => ?_, fun hp => ?_, fun {p q} hp hq => ?_⟩
  · rw [hw, yields_continuation hk, yields_continuation hk, hcut]
    exact h.continued (by rwa [isCommentLine_append]) hh
  · rw [hw, yields_continuation hk, yields_continuation hk, hcut,
      h.continued (by rwa [isCommentLine_append]) (by simp)]
    simp [hl]
  · -- without the comment the continuation goes to `p`; with it `p` is out already and stays shorter
    have hto : ToContinuation (l :: ls) := reaches_cons.mpr (.inl hk)
    rw [hw, yields_continuation hk, yields_continuation hk]
    obtain ⟨e, rest, he⟩ :=
      exists_yields .hold (p ++ joinSign :: continuationBody l) true [] (withoutComments ls)
    rw [he]
    constructor
    · intro hc
      have := congrArg List.length (List.cons.inj hc).1
      simp only [List.length_append, List.length_cons] at this
      omega
    · rintro ⟨hn, -⟩
      exact absurd hto hn

theorem Agrees.comment (hl : isLoneComment l = true) : Agrees (l :: ls) := by
  obtain ⟨hc, hn⟩ := isLoneComment_iff.mp hl
  have hw := withoutComments_skip (by rwa [ht]) ls
  have hcut : CutsOff (l :: ls) ↔ CutsOff ls := cutsOff_cons_of_not (by simp [beginsPlain, hc]) ls
  have hto : ToContinuation (l :: ls) ↔ ToContinuation ls := by
    rw [ToContinuation, reaches_cons]
    simp [hl, hn, ToContinuation]
  refine ⟨fun {p held} hp hh => ?_, fun hp => ?_, fun {p q} hp hq => ?_⟩
  · rw [hw, yields_held hn (by simp [hc]), hcut]
    refine h.continued hp fun x hx => ?_
    rcases List.mem_append.mp hx with hx | hx
    · exact hh x hx
    · rw [List.mem_singleton.mp hx]
      exact hc
  · rw [hw, yields_start hn rfl, plainOnes_cons_of_plain hp, hcut, hto]
    refine (h.interrupted hp hc).trans ?_
    simp [hl]
  · rw [hw, yields_start hn rfl, hcut, hto, ← List.cons_append,
      plainOnes_append_of_comments (by simpa using hq)]
    exact h.interrupted hp hc

theorem Agrees.start (hs : beginsPlain l = true) : Agrees (l :: ls) := by
  obtain ⟨hc, hn⟩ := beginsPlain_iff.mp hs
  have hl : isLoneComment l = false := by simp [isLoneComment, hc]
  have hw := withoutComments_keep (by rwa [ht]) ls
  have hto : ¬ ToContinuation (l :: ls) := by
    rw [ToContinuation, reaches_cons]
    simp [hl, hn]
  -- whatever was in flight is out, and `l` is in flight without a continuation
  have hfresh : plainOnes (yields .hold l false [] ls) = yields .hold l false [] (withoutComments ls) ↔
      ¬ CutsOff (l :: ls) := by
    rw [h.fresh hc, ← not_or, cutsOff_cons]
    simp [hs]
  refine ⟨fun {p held} hp hh => ?_, fun {p} hp => ?_, fun {p q} hp hq => ?_⟩
  · rw [hw, yields_start hn (by simp [hc]), yields_start hn (by simp [hc]),
      plainOnes_cons_of_plain hp, plainOnes_append_of_comments hh, ← hfresh]
    simp
  · rw [hw, yields_start hn rfl, yields_start hn rfl, plainOnes_cons_of_plain hp, ← hfresh]
    simp [hl]
  · rw [hw, yields_start hn rfl, yields_start hn rfl, ← List.cons_append,
      plainOnes_append_of_comments (by simpa using hq), ← hfresh]
    simp [hto]

end

theorem agrees {ls : List Text} (h : ∀ l ∈ ls, trim l = l) : Agrees ls := by
  induction ls with
  | nil => exact agrees_nil
  | cons l ls ih =>
    have ht := h l (List.mem_cons_self ..)
    have ih := ih fun m hm => h m (List.mem_cons_of_mem _ hm)
    -- one case for each kind of line; each says what is in flight behind that line
    rcases line_cases l with hk | hc | hs
    · exact ih.continuation ht hk
    · exact ih.comment ht hc
    · exact ih.start ht hs

/-- **Comments do not influence statements**, unless they part the first line of a statement from its
first continuation: just then the plain statements are not those of the deck without its comments. -/
theorem hold_ignores_comments_iff {ls : List Text}
    (h : (trimmedLines ls).head?.all beginsPlain = true) :
    plainOnes (statements ⟨.hold, .nothing⟩ ls) =
      statements ⟨.hold, .nothing⟩ (withoutComments ls) ↔
      ¬ CutsOff (trimmedLines ls) := by
  cases hl : trimmedLines ls with
  | nil =>
    have hw : trimmedLines (withoutComments ls) = [] := by
      rw [trimmedLines_withoutComments, hl]
      rfl
    rw [statements_blank hl, statements_blank hw]
    simp [plainOnes, not_cutsOff_nil]
  | cons l rest =>
    rw [hl] at h
    have hs := beginsPlain_iff.mp h
    have htrim : ∀ m ∈ l :: rest, trim m = m :=
      fun m hm => (isTrimmed_of_mem_trimmedLines (hl ▸ hm)).1
    have hw : trimmedLines (withoutComments ls) = l :: withoutComments rest := by
      rw [trimmedLines_withoutComments, hl, withoutComments_keep]
      rw [htrim l (List.mem_cons_self ..), isLoneComment, hs.1]
      rfl
    rw [statements_start hl hs.2, statements_start hw hs.2, cutsOff_cons,
      (agrees fun m hm => htrim m (List.mem_cons_of_mem _ hm)).fresh hs.1, ← not_or]
    simp [beginsPlain, hs]

/-- The comment comes behind the first continuation, and the statement is whole without it. -/
theorem hold_ignores_comments_resistor :
    (trimmedLines ["R1".toList, "+ 0".toList, "* in".toList, "+ 5".toList]).head?.all beginsPlain = true ∧
      statements ⟨.hold, .nothing⟩ ["R1".toList, "+ 0".toList, "* in".toList, "+ 5".toList] =
        ["R1 0 5".toList, "* in".toList] ∧
      plainOnes (statements ⟨.hold, .nothing⟩
        ["R1".toList, "+ 0".toList, "* in".toList, "+ 5".toList]) = ["R1 0 5".toList] ∧
      statements ⟨.hold, .nothing⟩
        (withoutComments ["R1".toList, "+ 0".toList, "* in".toList, "+ 5".toList]) =
          ["R1 0 5".toList] ∧
      ¬ CutsOff (trimmedLines ["R1".toList, "+ 0".toList, "* in".toList, "+ 5".toList]) := by
  have hplain : (trimmedLines ["R1".toList, "+ 0".toList, "* in".toList, "+ 5".toList]).head?.all
      beginsPlain = true := by decide
  have hout : plainOnes (statements ⟨.hold, .nothing⟩
      ["R1".toList, "+ 0".toList, "* in".toList, "+ 5".toList]) = ["R1 0 5".toList] := by decide
  have hwithout : statements ⟨.hold, .nothing⟩
      (withoutComments ["R1".toList, "+ 0".toList, "* in".toList, "+ 5".toList]) =
        ["R1 0 5".toList] := by decide
  have hcut := (hold_ignores_comments_iff hplain).mp (hout.trans hwithout.symm)
  exact ⟨hplain, by decide, hout, hwithout, hcut⟩

/-- A comment before the first continuation takes it from the statement. -/
theorem comment_takes_continuation :
    (∀ l ∈ ["a".toList, "* c".toList, "+ b".toList],
      Marker.comment.sign.isPrefixOf (trim l) = false) ∧
      (trimmedLines ["a".toList, "* c".toList, "+ b".toList]).head?.all beginsPlain = true ∧
      plainOnes (statements ⟨.hold, .nothing⟩ ["a".toList, "* c".toList, "+ b".toList]) = ["a".toList] ∧
      statements ⟨.hold, .nothing⟩ (withoutComments ["a".toList, "* c".toList, "+ b".toList]) =
        ["a b".toList] := by
  decide

end SpiceDeck
