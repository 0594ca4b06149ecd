import SpiceDeck.Text.Utf8

/-!
# UTF-8 reads back

`decode` reads exactly what `encode` writes, for one character (`decode_char`) and from that for
texts (`decode_eq_some_iff`). A newline is one byte, and no other character has that byte.
-/

namespace SpiceDeck

namespace Utf8

@[simp] theorem encode_nil : encode [] = [] := rfl

theorem encode_cons (c : Char) (t : Text) :
    encode (c :: t) = String.utf8EncodeChar c ++ encode t := rfl

theorem encode_append (s t : Text) : encode (s ++ t) = encode s ++ encode t := by
  simp [encode]

/-! ## One character -/

theorem isValidChar_toNat (c : Char) : c.toNat.isValidChar := c.valid

theorem toNat_lt (c : Char) : c.toNat < 0x110000 := by
  have := isValidChar_toNat c
  simp only [Nat.isValidChar] at this
  omega

theorem toNat_ofNat {n : Nat} (h : n.isValidChar) : (Char.ofNat n).toNat = n := by
  unfold Char.ofNat
  rw [dif_pos h]
  rfl

theorem scalar_toNat {least : Nat} {c : Char} (h : least ≤ c.toNat) :
    scalar least c.toNat = some c := by
  unfold scalar
  rw [if_pos ⟨h, isValidChar_toNat c⟩, Char.ofNat_toNat]

theorem eq_of_scalar {least n : Nat} {c : Char} (h : scalar least n = some c) :
    least ≤ n ∧ c.toNat = n := by
  unfold scalar at h
  split at h
  · rename_i hn
    obtain rfl := Option.some.inj h
    exact ⟨hn.1, toNat_ofNat hn.2⟩
  · cases h

theorem tailBits_ofNat {n : Nat} (h : n < 64) : tailBits (UInt8.ofNat (n + 0x80)) = some n := by
  have hn : (UInt8.ofNat (n + 0x80)).toNat = n + 0x80 := by
    rw [UInt8.toNat_ofNat', Nat.mod_eq_of_lt (by omega)]
  unfold tailBits
  rw [hn, if_pos ⟨by omega, by omega⟩, Nat.add_sub_cancel]

theorem eq_of_tailBits {b : UInt8} {n : Nat} (h : tailBits b = some n) :
    n < 64 ∧ b = UInt8.ofNat (n + 0x80) := by
  unfold tailBits at h
  split at h
  · rename_i hb
    obtain rfl := Option.some.inj h
    refine ⟨by omega, UInt8.toNat_inj.mp ?_⟩
    rw [UInt8.toNat_ofNat', Nat.sub_add_cancel hb.1, Nat.mod_eq_of_lt b.toNat_lt]
  · cases h

theorem toNat_byte {n : Nat} (h : n < 256) : (UInt8.ofNat n).toNat = n := by
  rw [UInt8.toNat_ofNat', Nat.mod_eq_of_lt h]

theorem decode_one {b₀ : UInt8} (h : b₀.toNat < 0x80) (rest : Bytes) :
    decode (b₀ :: rest) = prepend (some (Char.ofNat b₀.toNat)) (decode rest) := by
  rw [decode.eq_def]
  simp only [h, if_true]

theorem decode_two {b₀ : UInt8} (h : 0xC0 ≤ b₀.toNat) (h' : b₀.toNat < 0xE0) (b₁ : UInt8)
    (rest : Bytes) :
    decode (b₀ :: b₁ :: rest) = prepend (two b₀ b₁) (decode rest) := by
  rw [decode.eq_def]
  simp only [show ¬ b₀.toNat < 0x80 by omega, show ¬ b₀.toNat < 0xC0 by omega, h', if_true,
    if_false]

theorem decode_three {b₀ : UInt8} (h : 0xE0 ≤ b₀.toNat) (h' : b₀.toNat < 0xF0) (b₁ b₂ : UInt8)
    (rest : Bytes) :
    decode (b₀ :: b₁ :: b₂ :: rest) = prepend (three b₀ b₁ b₂) (decode rest) := by
  rw [decode.eq_def]
  simp only [show ¬ b₀.toNat < 0x80 by omega, show ¬ b₀.toNat < 0xC0 by omega,
    show ¬ b₀.toNat < 0xE0 by omega, h', if_true, if_false]

theorem decode_four {b₀ : UInt8} (h : 0xF0 ≤ b₀.toNat) (h' : b₀.toNat < 0xF8) (b₁ b₂ b₃ : UInt8)
    (rest : Bytes) :
    decode (b₀ :: b₁ :: b₂ :: b₃ :: rest) = prepend (four b₀ b₁ b₂ b₃) (decode rest) := by
  rw [decode.eq_def]
  simp only [show ¬ b₀.toNat < 0x80 by omega, show ¬ b₀.toNat < 0xC0 by omega,
    show ¬ b₀.toNat < 0xE0 by omega, show ¬ b₀.toNat < 0xF0 by omega, h', if_true, if_false]

/-- A character in front is read as such. -/
theorem decode_char (c : Char) (d : Bytes) :
    decode (String.utf8EncodeChar c ++ d) = prepend (some c) (decode d) := by
  have hlt := toNat_lt c
  have hof := Char.ofNat_toNat c
  have hscalar : ∀ {least}, least ≤ c.toNat → scalar least c.toNat = some c := scalar_toNat
  unfold String.utf8EncodeChar
  simp only [show c.val.toNat = c.toNat from rfl]
  generalize c.toNat = n at *
  split
  · rename_i h1
    rw [List.singleton_append, decode_one (by rw [toNat_byte] <;> omega), toNat_byte (by omega),
      hof]
  split
  · rename_i h1 h2
    have hb : (UInt8.ofNat (n / 64 % 32 + 192)).toNat = n / 64 + 192 := by rw [toNat_byte] <;> omega
    rw [List.cons_append, List.singleton_append, decode_two (by omega) (by omega), two, hb,
      tailBits_ofNat (by omega)]
    simp only [Option.bind_eq_bind, Option.bind_some]
    rw [show (n / 64 + 192 - 192) * 64 + n % 64 = n by omega, hscalar (by omega)]
  split
  · rename_i h1 h2 h3
    have hb : (UInt8.ofNat (n / 4096 % 16 + 224)).toNat = n / 4096 + 224 := by
      rw [toNat_byte] <;> omega
    rw [List.cons_append, List.cons_append, List.singleton_append,
      decode_three (by omega) (by omega), three, hb,
      tailBits_ofNat (by omega), tailBits_ofNat (by omega)]
    simp only [Option.bind_eq_bind, Option.bind_some]
    rw [show ((n / 4096 + 224 - 224) * 64 + n / 64 % 64) * 64 + n % 64 = n by omega,
      hscalar (by omega)]
  · rename_i h1 h2 h3
    have hb : (UInt8.ofNat (n / 262144 % 8 + 240)).toNat = n / 262144 + 240 := by
      rw [toNat_byte] <;> omega
    rw [List.cons_append, List.cons_append, List.cons_append, List.singleton_append,
      decode_four (by omega) (by omega), four, hb,
      tailBits_ofNat (by omega), tailBits_ofNat (by omega), tailBits_ofNat (by omega)]
    simp only [Option.bind_eq_bind, Option.bind_some]
    rw [show (((n / 262144 + 240 - 240) * 64 + n / 4096 % 64) * 64 + n / 64 % 64) * 64 + n % 64 =
      n by omega,
      hscalar (by omega)]

/-! ## The bytes of a character that was read -/

theorem bytes_of_one {b₀ : UInt8} (h : b₀.toNat < 0x80) :
    String.utf8EncodeChar (Char.ofNat b₀.toNat) = [b₀] := by
  have hn : (Char.ofNat b₀.toNat).val.toNat = b₀.toNat :=
    toNat_ofNat (by simp [Nat.isValidChar]; omega)
  unfold String.utf8EncodeChar
  simp only [hn]
  rw [if_pos (by omega), UInt8.ofNat_toNat]

theorem bytes_of_two {b₀ b₁ : UInt8} {c : Char} (h : 0xC0 ≤ b₀.toNat) (h' : b₀.toNat < 0xE0)
    (hc : two b₀ b₁ = some c) : String.utf8EncodeChar c = [b₀, b₁] := by
  unfold two at hc
  obtain ⟨k₁, hk₁, hs⟩ := Option.bind_eq_some_iff.mp hc
  obtain ⟨hlt₁, rfl⟩ := eq_of_tailBits hk₁
  obtain ⟨hl, hn⟩ := eq_of_scalar hs
  unfold String.utf8EncodeChar
  simp only [show c.val.toNat = c.toNat from rfl]
  rw [if_neg (by omega), if_pos (by omega), show c.toNat / 64 % 32 + 192 = b₀.toNat by omega,
    show c.toNat % 64 = k₁ by omega, UInt8.ofNat_toNat]

theorem bytes_of_three {b₀ b₁ b₂ : UInt8} {c : Char} (h : 0xE0 ≤ b₀.toNat) (h' : b₀.toNat < 0xF0)
    (hc : three b₀ b₁ b₂ = some c) : String.utf8EncodeChar c = [b₀, b₁, b₂] := by
  unfold three at hc
  obtain ⟨k₁, hk₁, hc⟩ := Option.bind_eq_some_iff.mp hc
  obtain ⟨k₂, hk₂, hs⟩ := Option.bind_eq_some_iff.mp hc
  obtain ⟨hlt₁, rfl⟩ := eq_of_tailBits hk₁
  obtain ⟨hlt₂, rfl⟩ := eq_of_tailBits hk₂
  obtain ⟨hl, hn⟩ := eq_of_scalar hs
  unfold String.utf8EncodeChar
  simp only [show c.val.toNat = c.toNat from rfl]
  rw [if_neg (by omega), if_neg (by omega), if_pos (by omega),
    show c.toNat / 4096 % 16 + 224 = b₀.toNat by omega, show c.toNat / 64 % 64 = k₁ by omega,
    show c.toNat % 64 = k₂ by omega, UInt8.ofNat_toNat]

theorem bytes_of_four {b₀ b₁ b₂ b₃ : UInt8} {c : Char} (h : 0xF0 ≤ b₀.toNat) (h' : b₀.toNat < 0xF8)
    (hc : four b₀ b₁ b₂ b₃ = some c) : String.utf8EncodeChar c = [b₀, b₁, b₂, b₃] := by
  unfold four at hc
  obtain ⟨k₁, hk₁, hc⟩ := Option.bind_eq_some_iff.mp hc
  obtain ⟨k₂, hk₂, hc⟩ := Option.bind_eq_some_iff.mp hc
  obtain ⟨k₃, hk₃, hs⟩ := Option.bind_eq_some_iff.mp hc
  obtain ⟨hlt₁, rfl⟩ := eq_of_tailBits hk₁
  obtain ⟨hlt₂, rfl⟩ := eq_of_tailBits hk₂
  obtain ⟨hlt₃, rfl⟩ := eq_of_tailBits hk₃
  obtain ⟨hl, hn⟩ := eq_of_scalar hs
  unfold String.utf8EncodeChar
  simp only [show c.val.toNat = c.toNat from rfl]
  rw [if_neg (by omega), if_neg (by omega), if_neg (by omega),
    show c.toNat / 262144 % 8 + 240 = b₀.toNat by omega, show c.toNat / 4096 % 64 = k₁ by omega,
    show c.toNat / 64 % 64 = k₂ by omega, show c.toNat % 64 = k₃ by omega, UInt8.ofNat_toNat]

/-! ## Texts -/

theorem eq_of_prepend {o : Option Char} {r : Option Text} {t : Text} (h : prepend o r = some t) :
    ∃ c s, o = some c ∧ r = some s ∧ t = c :: s := by
  cases o with
  | none => cases h
  | some c =>
    cases r with
    | none => cases h
    | some s => exact ⟨c, s, rfl, rfl, (Option.some.inj h).symm⟩

theorem decode_encode_append (t : Text) (d : Bytes) :
    decode (encode t ++ d) = (decode d).map (t ++ ·) := by
  induction t with
  | nil => simp
  | cons c t ih =>
    rw [encode_cons, List.append_assoc, decode_char, ih]
    cases decode d <;> rfl

theorem decode_encode (t : Text) : decode (encode t) = some t := by
  have := decode_encode_append t []
  rw [List.append_nil] at this
  rw [this, show decode [] = some [] from rfl, Option.map_some, List.append_nil]

theorem encode_of_decode {d : Bytes} {t : Text} (h : decode d = some t) : encode t = d := by
  fun_induction decode d generalizing t with
  | case1 => cases h; rfl
  | case2 b₀ rest h₀ ih =>
    obtain ⟨c, s, hc, hs, rfl⟩ := eq_of_prepend h
    obtain rfl := Option.some.inj hc
    rw [encode_cons, bytes_of_one h₀, ih hs, List.singleton_append]
  | case3 => cases h
  | case4 b₀ h₀ h₁ h₂ b₁ rest ih =>
    obtain ⟨c, s, hc, hs, rfl⟩ := eq_of_prepend h
    rw [encode_cons, bytes_of_two (by omega) h₂ hc, ih hs]
    rfl
  | case5 => cases h
  | case6 b₀ h₀ h₁ h₂ h₃ b₁ b₂ rest ih =>
    obtain ⟨c, s, hc, hs, rfl⟩ := eq_of_prepend h
    rw [encode_cons, bytes_of_three (by omega) h₃ hc, ih hs]
    rfl
  | case7 => cases h
  | case8 b₀ h₀ h₁ h₂ h₃ h₄ b₁ b₂ b₃ rest ih =>
    obtain ⟨c, s, hc, hs, rfl⟩ := eq_of_prepend h
    rw [encode_cons, bytes_of_four (by omega) h₄ hc, ih hs]
    rfl
  | case9 => cases h
  | case10 => cases h

/-- **Strict UTF-8.** The bytes that are read are the bytes that are written. -/
theorem decode_eq_some_iff {d : Bytes} {t : Text} : decode d = some t ↔ d = encode t :=
  ⟨fun h => (encode_of_decode h).symm, fun h => h ▸ decode_encode t⟩

/-! ## The byte of a newline -/

theorem high_of_mem_char {c : Char} (h : 0x80 ≤ c.toNat) {b : UInt8}
    (hb : b ∈ String.utf8EncodeChar c) :
    0x80 ≤ b.toNat := by
  have hlt := toNat_lt c
  unfold String.utf8EncodeChar at hb
  simp only [show c.val.toNat = c.toNat from rfl] at hb
  generalize c.toNat = n at *
  rw [if_neg (by omega)] at hb
  split at hb
  · simp only [List.mem_cons, List.not_mem_nil, or_false] at hb
    rcases hb with rfl | rfl <;> rw [toNat_byte] <;> omega
  split at hb
  · simp only [List.mem_cons, List.not_mem_nil, or_false] at hb
    rcases hb with rfl | rfl | rfl <;> rw [toNat_byte] <;> omega
  · simp only [List.mem_cons, List.not_mem_nil, or_false] at hb
    rcases hb with rfl | rfl | rfl | rfl <;> rw [toNat_byte] <;> omega

theorem newline_mem_char {c : Char} : 0x0A ∈ String.utf8EncodeChar c ↔ c = '\n' := by
  constructor
  · intro h
    by_cases hc : c.toNat < 0x80
    · unfold String.utf8EncodeChar at h
      rw [if_pos (show c.val.toNat ≤ 0x7f from by change c.toNat ≤ _; omega),
        List.mem_singleton] at h
      have := congrArg UInt8.toNat h
      rw [show c.val.toNat = c.toNat from rfl, toNat_byte (by omega)] at this
      exact Char.toNat_inj.mp this.symm
    · have := high_of_mem_char (by omega) h
      simp at this
  · rintro rfl
    decide

theorem newline_mem_encode {t : Text} : 0x0A ∈ encode t ↔ '\n' ∈ t := by
  simp only [encode, List.mem_flatMap, newline_mem_char]
  simp

theorem count_newline_encode (t : Text) : (encode t).count 0x0A = t.count '\n' := by
  induction t with
  | nil => rfl
  | cons c t ih =>
    rw [encode_cons, List.count_append, ih]
    by_cases hc : c = '\n'
    · subst hc
      rw [List.count_cons_self, show (String.utf8EncodeChar '\n').count 0x0A = 1 by decide,
        Nat.add_comm]
    · have hn : 0x0A ∉ String.utf8EncodeChar c := fun h => hc (newline_mem_char.mp h)
      rw [List.count_eq_zero_of_not_mem hn, List.count_cons_of_ne hc, Nat.zero_add]

theorem encode_newline : encode ['\n'] = [0x0A] := by decide

end Utf8

end SpiceDeck
