import SpiceDeck.Text.Digits

/-!
# Digits that are read back

The digits of a number say that number (`read_decimal`).
-/

namespace SpiceDeck

namespace Digits

theorem isDigit_of_mem_decimal {n : Nat} {c : Char} (h : c ∈ decimal n) : c.isDigit = true :=
  Nat.isDigit_of_mem_toDigits (by decide) (by decide) h

theorem decimal_ne_nil (n : Nat) : decimal n ≠ [] := Nat.toDigits_ne_nil

theorem value?_of_isDigit {c : Char} (h : c.isDigit = true) :
    value? 10 c = some (c.toNat - '0'.toNat) := by
  obtain ⟨hlow, hhigh⟩ := Char.isDigit_iff_toNat.mp h
  have hc : '0' ≤ c ∧ c ≤ '9' := ⟨hlow, hhigh⟩
  have hn : c.toNat - '0'.toNat < 10 := by
    have : '9'.toNat = '0'.toNat + 9 := rfl
    omega
  simp only [value?, if_pos hc, if_pos hn]

theorem readFrom_digits {t : Text} (h : ∀ c ∈ t, c.isDigit = true) (n : Nat) :
    readFrom 10 n t = some (Nat.ofDigitChars 10 t n) := by
  induction t generalizing n with
  | nil => rfl
  | cons c t ih =>
    obtain ⟨hc, ht⟩ := List.forall_mem_cons.mp h
    rw [readFrom, value?_of_isDigit hc, Nat.ofDigitChars_cons, Nat.mul_comm 10 n]
    exact ih ht _

theorem read_decimal (n : Nat) : read 10 (decimal n) = some n := by
  have hne : ¬(decimal n).isEmpty := by simp [decimal_ne_nil]
  rw [read, if_neg hne, readFrom_digits fun c hc => isDigit_of_mem_decimal hc]
  exact congrArg some Nat.ofDigitChars_ten_toDigits

theorem decimal_inj {n m : Nat} : decimal n = decimal m ↔ n = m := by
  constructor
  · intro h
    have hread := congrArg (read 10) h
    rw [read_decimal, read_decimal] at hread
    exact Option.some.inj hread
  · exact congrArg decimal

/-- No number but zero has a zero in front. -/
theorem head?_decimal {n : Nat} (h : (decimal n).head? = some '0') : n = 0 := by
  induction n using Nat.strongRecOn with
  | ind n ih =>
    by_cases hn : n < 10
    · rw [decimal, Nat.toDigits_of_lt_base hn] at h
      have hdigit : ∀ m < 10, Nat.digitChar m = '0' → m = 0 := by decide
      exact hdigit n hn (Option.some.inj h)
    · have hcut : decimal n = decimal (n / 10) ++ [Nat.digitChar (n % 10)] :=
        Nat.toDigits_of_base_le (by decide) (Nat.le_of_not_lt hn)
      obtain ⟨c, t, ht⟩ := List.exists_cons_of_ne_nil (decimal_ne_nil (n / 10))
      rw [hcut, ht] at h
      have hzero := ih (n / 10) (by omega) (by rw [ht]; exact h)
      omega

end Digits

end SpiceDeck
