import SpiceDeck.Proofs.Text.Utf8
import SpiceDeck.Text.Columns

/-!
# Columns and bytes

No character takes more columns than it has bytes, so no text does (`columns_le_bytes`). Where no
escape sequence begins, the columns of texts side by side add up (`columns_append`).
-/

namespace SpiceDeck

theorem Ranges.le_of_covers {low high n : Nat} {rest : Ranges}
    (h : Ranges.covers ((low, high) :: rest) n = true) : low ≤ n := by
  rw [Ranges.covers] at h
  by_cases hn : n < low
  · rw [if_pos hn] at h
    cases h
  · exact Nat.le_of_not_lt hn

namespace Text

open Utf8

theorem length_char (c : Char) :
    1 ≤ (String.utf8EncodeChar c).length ∧
      (0x800 ≤ c.toNat → 3 ≤ (String.utf8EncodeChar c).length) := by
  unfold String.utf8EncodeChar
  simp only [show c.val.toNat = c.toNat from rfl]
  split
  · simp; omega
  split
  · simp; omega
  split <;> simp

theorem charColumns_le (c : Char) : charColumns c ≤ (String.utf8EncodeChar c).length := by
  obtain ⟨h₁, h₃⟩ := length_char c
  unfold charColumns
  dsimp only
  split
  · exact Nat.zero_le _
  split
  · rename_i h
    -- the first wide character has three bytes
    have : 0x1100 ≤ c.toNat := Ranges.le_of_covers h
    have := h₃ (by omega)
    omega
  split
  · exact h₃ (by omega)
  · exact h₁

theorem columns_step_le (e : Escape) (c : Char) :
    (e.step c).2 ≤ (String.utf8EncodeChar c).length := by
  cases e with
  | outside =>
    rw [Escape.step]
    split
    · exact Nat.zero_le _
    · exact charColumns_le c
  -- inside an escape sequence nothing is shown
  | opened => simp [Escape.step, apply_ite Prod.snd]
  | control => simp [Escape.step, apply_ite Prod.snd]
  | command last => simp [Escape.step, apply_ite Prod.snd]

theorem columnsFrom_le_bytes (e : Escape) (t : Text) : columnsFrom e t ≤ (encode t).length := by
  induction t generalizing e with
  | nil => exact Nat.le_refl 0
  | cons c t ih =>
    rw [columnsFrom, encode_cons, List.length_append]
    exact Nat.add_le_add (columns_step_le e c) (ih _)

theorem columns_le_bytes (t : Text) : columns t ≤ (encode t).length :=
  columnsFrom_le_bytes .outside t

/-! ## Texts side by side -/

theorem columns_cons {c : Char} (h : c ≠ escapeSign) (t : Text) :
    columns (c :: t) = charColumns c + columns t := by
  simp [columns, columnsFrom, Escape.step, h]

theorem columns_append {t : Text} (h : escapeSign ∉ t) (u : Text) :
    columns (t ++ u) = columns t + columns u := by
  induction t with
  | nil => simp [columns, columnsFrom]
  | cons c t ih =>
    rw [List.mem_cons, not_or] at h
    have hc : c ≠ escapeSign := Ne.symm h.1
    rw [List.cons_append, columns_cons hc, columns_cons hc, ih h.2, Nat.add_assoc]

end Text

end SpiceDeck
