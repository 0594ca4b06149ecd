import SpiceDeck.Proofs.Text.Digits
import SpiceDeck.Toml.Lexeme

/-!
# Lexemes that are read back

A document is read in steps, one for each lexeme and each blank between, so a text never takes more
steps than it has characters. `LexesTo` says what a text is read as in front of another, and texts with
this property can be put together (`LexesTo.append`).
-/

namespace SpiceDeck

namespace Toml

open Lexeme

/-- In front of `rest` the text is read as these lexemes. -/
def LexesTo (t : Text) (ls : List Lexeme) (rest : Text) : Prop :=
  ∃ k ≤ t.length, ∀ n, readFrom (n + k) (t ++ rest) = (readFrom n rest).map (ls ++ ·)

section
variable {t u rest : Text} {ls ms : List Lexeme}

theorem LexesTo.nil (rest : Text) : LexesTo [] [] rest := ⟨0, Nat.le_refl _, fun n => by simp⟩

theorem LexesTo.append (h : LexesTo t ls (u ++ rest)) (h' : LexesTo u ms rest) :
    LexesTo (t ++ u) (ls ++ ms) rest := by
  obtain ⟨k, hk, h⟩ := h
  obtain ⟨j, hj, h'⟩ := h'
  refine ⟨j + k, ?_, fun n => ?_⟩
  · rw [List.length_append]
    omega
  · rw [List.append_assoc, ← Nat.add_assoc, h, h', Option.map_map]
    simp [Function.comp_def]

theorem LexesTo.blank {c : Char} (hc : isGap c = true) (h : LexesTo t ls rest) :
    LexesTo (c :: t) ls rest := by
  obtain ⟨k, hk, h⟩ := h
  refine ⟨k + 1, Nat.succ_le_succ hk, fun n => ?_⟩
  rw [List.cons_append, ← Nat.add_assoc, readFrom, if_pos hc, h]

theorem lexesTo_of_next {c : Char} {l : Lexeme} (hc : isGap c = false)
    (h : Lexeme.next c (t ++ rest) = some (l, rest)) : LexesTo (c :: t) [l] rest := by
  refine ⟨1, by simp, fun n => ?_⟩
  rw [List.cons_append, readFrom, if_neg (by simp [hc]), h]
  cases hr : readFrom n rest <;> simp [hr]

/-! ## Whole texts -/

theorem foldLineEnds_eq_self (h : '\r' ∉ t) : foldLineEnds t = t := by
  fun_induction foldLineEnds t with
  | case1 => simp at h
  | case2 c t _ ih => rw [ih (List.not_mem_of_not_mem_cons h)]
  | case3 => rfl

/-- No lexeme begins with the mark, so a text that is read does not. -/
theorem dropMark_of_readFrom {n : Nat} (h : readFrom n t = some ls) : dropMark t = t := by
  cases t with
  | nil => rfl
  | cons c t =>
    by_cases hc : c = byteOrderMark
    · subst hc
      have hnext : Lexeme.next byteOrderMark t = none := rfl
      cases n with
      | zero => simp [readFrom] at h
      | succ n =>
        rw [readFrom, if_neg (by decide), hnext] at h
        cases h
    · rw [dropMark, if_neg hc]

theorem ofText_of_lexesTo (h : LexesTo t ls []) (hr : '\r' ∉ t) : Lexeme.ofText t = some ls := by
  obtain ⟨k, hk, h⟩ := h
  have hread : readFrom t.length t = some ls := by
    have hn := h (t.length - k)
    rw [Nat.sub_add_cancel hk, List.append_nil] at hn
    rw [hn, readFrom]
    simp
  rw [Lexeme.ofText, dropMark_of_readFrom hread, foldLineEnds_eq_self hr, hread]

end

/-! ## Blanks and comments -/

/-- Blanks inside a line. -/
structure Gap where
  text : Text
  isGap : ∀ c ∈ text, Lexeme.isGap c = true

/-- The end of a line: blanks, perhaps a comment, and the newline. -/
structure Ending where
  gap : Gap
  comment : Option Text
  inComment : ∀ t ∈ comment, ∀ c ∈ t, Lexeme.inComment c = true

namespace Ending

def ofComment (gap comment : Text) (hg : gap.all isGap = true)
    (hc : comment.all Lexeme.inComment = true) : Ending where
  gap := ⟨gap, List.all_eq_true.mp hg⟩
  comment := some comment
  inComment := by
    rintro _ ⟨⟩
    exact List.all_eq_true.mp hc

def remark (e : Ending) : Text :=
  match e.comment with
  | some t => '#' :: t
  | none => []

def text (e : Ending) : Text := e.gap.text ++ (e.remark ++ ['\n'])

def lexemes (e : Ending) : List Lexeme :=
  if e.comment.isSome then [.comment, .newline] else [.newline]

end Ending

theorem lexesTo_gap (g : Gap) (rest : Text) : LexesTo g.text [] rest := by
  obtain ⟨t, ht⟩ := g
  induction t with
  | nil => exact .nil rest
  | cons c t ih =>
    obtain ⟨hc, ht⟩ := List.forall_mem_cons.mp ht
    exact .blank hc (ih ht)

/-- A comment goes on up to the newline, which is no part of it. -/
theorem lexesTo_ending (e : Ending) (rest : Text) : LexesTo e.text e.lexemes rest := by
  have hnewline : LexesTo ['\n'] [.newline] rest := lexesTo_of_next (by decide) rfl
  have hremark : LexesTo (e.remark ++ ['\n']) e.lexemes rest := by
    unfold Ending.remark Ending.lexemes
    cases hc : e.comment with
    | none => exact hnewline
    | some t =>
      have ht := e.inComment t hc
      have hdrop : (t ++ (['\n'] ++ rest)).dropWhile inComment = ['\n'] ++ rest := by
        rw [List.dropWhile_append_of_pos ht]
        rfl
      have hcomment : LexesTo ('#' :: t) [.comment] (['\n'] ++ rest) := by
        refine lexesTo_of_next (by decide) ?_
        rw [Lexeme.next, if_pos rfl, hdrop]
      exact hcomment.append hnewline
  exact (lexesTo_gap e.gap _).append hremark

theorem head?_gap {g : Gap} {t : Text} {p : Char → Prop} (hg : ∀ c, isGap c = true → p c)
    (ht : ∀ c ∈ t.head?, p c) : ∀ c ∈ (g.text ++ t).head?, p c := by
  intro c hc
  rw [List.head?_append] at hc
  cases hh : g.text.head? with
  | none =>
    rw [hh] at hc
    exact ht c hc
  | some d =>
    rw [hh] at hc
    obtain rfl : d = c := by simpa using hc
    exact hg d (g.isGap d (List.mem_of_head? hh))

theorem head?_ending {e : Ending} {rest : Text} {p : Char → Prop} (hg : ∀ c, isGap c = true → p c)
    (hs : p '#') (hn : p '\n') : ∀ c ∈ (e.text ++ rest).head?, p c := by
  rw [Ending.text, List.append_assoc]
  apply head?_gap hg
  intro c hc
  unfold Ending.remark at hc
  split at hc
  · obtain rfl : '#' = c := by simpa using hc
    exact hs
  · obtain rfl : '\n' = c := by simpa using hc
    exact hn

/-! ## Words, numbers and quoted texts -/

/-- A word that is read as one lexeme, whatever its first character. -/
def IsBareWord (t : Text) : Prop := t ≠ [] ∧ ∀ c ∈ t, isBare c = true

/-- A text that can be written between quotes as it is. -/
def IsPlainText (t : Text) : Prop :=
  t ≠ [] ∧ ∀ c ∈ t, isPlain c = true ∧ c ≠ '"' ∧ c ≠ '\\'

instance (t : Text) : Decidable (IsBareWord t) :=
  decidable_of_iff (t ≠ [] ∧ t.all isBare = true) (by simp [IsBareWord])

instance (t : Text) : Decidable (IsPlainText t) :=
  decidable_of_iff (t ≠ [] ∧ t.all (fun c => isPlain c && c != '"' && c != '\\') = true)
    (by simp [IsPlainText, and_assoc])

theorem isBare_of_isGap {c : Char} (h : isGap c = true) : isBare c = false := by
  simp only [isGap, Bool.or_eq_true, beq_iff_eq] at h
  rcases h with rfl | rfl <;> decide

theorem isBareWord_decimal (n : Nat) : IsBareWord (Digits.decimal n) := by
  refine ⟨Digits.decimal_ne_nil n, fun c hc => ?_⟩
  simp [isBare, Char.isAlphanum, Digits.isDigit_of_mem_decimal hc]

theorem lexesTo_bare {t rest : Text} (h : IsBareWord t) (hr : ∀ c ∈ rest.head?, isBare c = false) :
    LexesTo t [.bare t] rest := by
  obtain ⟨c, body, rfl⟩ := List.exists_cons_of_ne_nil h.1
  obtain ⟨hc, hbody⟩ := List.forall_mem_cons.mp h.2
  have hne : ∀ d, isBare d = false → c ≠ d := by
    rintro d hd rfl
    rw [hc] at hd
    cases hd
  have hrest : rest.takeWhile isBare = [] ∧ rest.dropWhile isBare = rest := by
    cases rest with
    | nil => exact ⟨rfl, rfl⟩
    | cons d rest =>
      have hd := hr d rfl
      simp [hd]
  have hgap : isGap c = false := by
    cases hg : isGap c with
    | false => rfl
    | true => exact absurd hc (by simp [isBare_of_isGap hg])
  refine lexesTo_of_next hgap ?_
  rw [Lexeme.next, if_neg (hne '#' (by decide)), if_neg (hne '\'' (by decide)),
    if_neg (hne '"' (by decide)), if_pos hc, List.takeWhile_append_of_pos hbody,
    List.dropWhile_append_of_pos hbody, hrest.1, hrest.2, List.append_nil]

theorem basic_plain {t : Text} (h : ∀ c ∈ t, isPlain c = true ∧ c ≠ '"' ∧ c ≠ '\\') (rest : Text) :
    basic false .plain (t ++ '"' :: rest) = some (t, rest) := by
  induction t with
  | nil => simp [basic, close]
  | cons c t ih =>
    obtain ⟨⟨hplain, hquote, hback⟩, ht⟩ := List.forall_mem_cons.mp h
    simp [basic, hback, hquote, mayHold, hplain, ih ht, Reading.push]

theorem lexesTo_quoted {t : Text} (h : IsPlainText t) (rest : Text) :
    LexesTo ('"' :: (t ++ ['"'])) [.quoted t false] rest := by
  obtain ⟨c, body, rfl⟩ := List.exists_cons_of_ne_nil h.1
  have hopen : ((c :: body ++ ['"'] ++ rest).take 2 == ['"', '"']) = false := by
    have hc := (h.2 c (List.mem_cons_self ..)).2.1
    simp [hc]
  have hbasic : basic false .plain (c :: body ++ ['"'] ++ rest) = some (c :: body, rest) := by
    rw [List.append_assoc]
    exact basic_plain h.2 rest
  refine lexesTo_of_next (by decide) ?_
  rw [Lexeme.next, if_neg (by decide), if_neg (by decide), if_pos rfl, quotedFrom, hopen, hbasic]
  rfl

end Toml

end SpiceDeck
