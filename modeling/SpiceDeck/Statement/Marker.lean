import SpiceDeck.Text.Basic

/-!
# Continuation markers

A physical line continues the statement before it if it begins with `+`, or with `*+` when the
statement is a comment. A comment is any line that begins with `*`.
-/

namespace SpiceDeck

inductive Marker
  | plain
  | comment
  deriving DecidableEq

namespace Marker

def commentSign : Char := '*'

def sign : Marker → Text
  | plain => ['+']
  | comment => [commentSign, '+']

/-- What stands before the words of a continuation line: the sign and one space. -/
def indent (m : Marker) : Text := m.sign ++ [' ']

/-- The marker of a statement's continuation lines; only its first character that is no blank
decides. -/
def ofStatement (t : Text) : Marker :=
  if (Text.trimLeft t).head? = some commentSign then comment else plain

end Marker

/-- Holds of a trimmed line that belongs to the statement before it. -/
def continuesStatement (line : Text) : Bool :=
  Marker.plain.sign.isPrefixOf line || Marker.comment.sign.isPrefixOf line

/-- Holds of every line that begins with the comment sign, a continuation among them. -/
def isCommentLine (line : Text) : Bool := line.head? == some Marker.commentSign

/-- The characters that a continuation line loses at its head. -/
def continuationSigns : List Char := ['+', '*', ' ']

/-- Removes every leading `+`, `*` and space, however many there are and in any order. -/
def continuationBody (line : Text) : Text := line.dropWhile continuationSigns.contains

theorem continuationBody_suffix (line : Text) : continuationBody line <:+ line :=
  List.dropWhile_suffix _

/-- What is removed is a run of signs, and what is left begins with none. -/
theorem continuationBody_eq_iff {line t : Text} :
    continuationBody line = t ↔
      ∃ signs, line = signs ++ t ∧ (∀ c ∈ signs, c ∈ continuationSigns) ∧
        ∀ c ∈ t.head?, c ∉ continuationSigns := by
  constructor
  · intro h
    subst h
    refine ⟨line.takeWhile continuationSigns.contains, List.takeWhile_append_dropWhile.symm, ?_, ?_⟩
    · intro c hc
      have hall := List.all_eq_true.mp List.all_takeWhile c hc
      exact List.contains_iff_mem.mp hall
    · intro c hc hsign
      have hstop := List.head?_dropWhile_not continuationSigns.contains line
      rw [← continuationBody, Option.mem_def.mp hc] at hstop
      have hgo := List.contains_iff_mem.mpr hsign
      exact Bool.false_ne_true (hstop.symm.trans hgo)
  · intro h
    obtain ⟨signs, hline, hsigns, ht⟩ := h
    rw [hline, continuationBody, List.dropWhile_append_of_pos fun c hc =>
      List.contains_iff_mem.mpr (hsigns c hc)]
    cases t with
    | nil => rfl
    | cons c t => exact List.dropWhile_cons_of_neg fun hc => ht c rfl (List.contains_iff_mem.mp hc)

/-- What is put between a statement and the words of its continuation line. -/
def joinSign : Char := ' '

end SpiceDeck
