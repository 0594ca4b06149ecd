import SpiceDeck.Proofs.Text.Digits
import SpiceDeck.Proofs.Text.Lines
import SpiceDeck.Query.Listing

/-!
# Listings that lose nothing

The entry of a statement has a number up to its first tab and the whole statement behind it, so the
statements can be read off a listing (`lists_findings`). The number is the position of the first word
that holds the text looked for.
-/

namespace SpiceDeck

open Text

/-! ## The first word that holds a text -/

theorem contains_iff {s t : Text} : Text.contains s t = true ↔ s <:+: t := by
  induction t with
  | nil => simp [Text.contains]
  | cons c t ih => simp [Text.contains, List.infix_cons_iff, ih]

/-- The item at a position holds `s`, and none before it does. -/
def FirstHolds (s : Text) (items : List Text) (i : Nat) : Prop :=
  (∃ item, items[i]? = some item ∧ s <:+: item) ∧
    ∀ j < i, ∀ item, items[j]? = some item → ¬ s <:+: item

theorem firstContaining_eq_some_iff {s : Text} {items : List Text} {i : Nat} :
    firstContaining s items = some i ↔ FirstHolds s items i := by
  rw [firstContaining, List.findIdx?_eq_some_iff_getElem]
  constructor
  · rintro ⟨hi, hs, hbefore⟩
    refine ⟨⟨items[i], List.getElem?_eq_getElem hi, contains_iff.mp hs⟩, ?_⟩
    intro j hj item hitem hc
    obtain ⟨hlt, rfl⟩ := List.getElem?_eq_some_iff.mp hitem
    exact hbefore j hj (contains_iff.mpr hc)
  · rintro ⟨⟨item, hitem, hs⟩, hbefore⟩
    obtain ⟨hi, rfl⟩ := List.getElem?_eq_some_iff.mp hitem
    refine ⟨hi, contains_iff.mpr hs, fun j hj hc => ?_⟩
    exact hbefore j hj _ (List.getElem?_eq_getElem (by omega)) (contains_iff.mp hc)

theorem firstContaining_eq_none_iff {s : Text} {items : List Text} :
    firstContaining s items = none ↔ ∀ item ∈ items, ¬ s <:+: item := by
  simp only [firstContaining, List.findIdx?_eq_none_iff, ← contains_iff, Bool.not_eq_true]

/-! ## Entries -/

/-- What an entry has in front of its first tab. -/
def numberOf (entry : Text) : Text := entry.takeWhile (· != '\t')

/-- What is left of an entry without its text up to the first tab. -/
def behindTab (entry : Text) : Text := (entry.dropWhile (· != '\t')).tail

theorem numberOf_append_behindTab {e : Text} (h : '\t' ∈ e) :
    numberOf e ++ '\t' :: behindTab e = e := by
  have hcut : numberOf e ++ e.dropWhile (· != '\t') = e := List.takeWhile_append_dropWhile
  cases hd : e.dropWhile (· != '\t') with
  | nil =>
    rw [hd, List.append_nil] at hcut
    rw [← hcut] at h
    have htab := List.all_eq_true.mp List.all_takeWhile _ h
    simp at htab
  | cons c rest =>
    have hc : c = '\t' := by
      have hstop := head?_dropWhile (p := (· != '\t')) c (by rw [hd]; rfl)
      simpa using hstop
    rw [behindTab, hd, List.tail_cons, ← hc, ← hd, hcut]

namespace Finding

def entry (f : Finding) : Text := f.positionText ++ '\t' :: f.statement

section
variable (f : Finding)

theorem not_mem_positionText {c : Char} (hd : c.isDigit = false) (hm : c ≠ '-') :
    c ∉ f.positionText := by
  unfold positionText
  split
  · intro hc
    rw [Digits.isDigit_of_mem_decimal hc] at hd
    cases hd
  · intro hc
    simp only [List.mem_cons, List.not_mem_nil, or_false] at hc
    rcases hc with hc | rfl
    · exact hm hc
    · cases hd

theorem not_tab : ∀ c ∈ f.positionText, (c != '\t') = true := by
  intro c hc
  rw [bne_iff_ne]
  rintro rfl
  exact f.not_mem_positionText (by decide) (by decide) hc

theorem numberOf_entry : numberOf f.entry = f.positionText := by
  rw [numberOf, entry, List.takeWhile_append_of_pos f.not_tab]
  simp

theorem behindTab_entry : behindTab f.entry = f.statement := by
  rw [behindTab, entry, List.dropWhile_append_of_pos f.not_tab]
  simp

/-- No decimal number has a sign, so `-1` is none of the positions. -/
theorem positionText_eq_minus_iff : f.positionText = ['-', '1'] ↔ f.position = none := by
  unfold positionText
  cases f.position with
  | none => simp
  | some i =>
    have hne : Digits.decimal i ≠ ['-', '1'] := by
      intro he
      have hminus : '-' ∈ Digits.decimal i := by simp [he]
      exact absurd (Digits.isDigit_of_mem_decimal hminus) (by decide)
    simp [hne]

theorem positionText_eq_decimal_iff (i : Nat) :
    f.positionText = Digits.decimal i ↔ f.position = some i := by
  cases hp : f.position with
  | none =>
    have hminus := f.positionText_eq_minus_iff.mpr hp
    have hne : ['-', '1'] ≠ Digits.decimal i := by
      intro he
      have hmem : '-' ∈ Digits.decimal i := by simp [← he]
      exact absurd (Digits.isDigit_of_mem_decimal hmem) (by decide)
    simp [hminus, hne]
  | some k =>
    have htext : f.positionText = Digits.decimal k := by
      unfold positionText
      rw [hp]
    rw [htext, Digits.decimal_inj, Option.some.injEq]

end

end Finding

/-! ## Whole listings -/

/-- An entry for each of the statements, in order. Its number is the position of the first word of its
statement that holds `s`, and -1 if there is none. -/
structure Lists (s : Text) (statements entries : List Text) : Prop where
  statement : entries.map behindTab = statements
  newline : ∀ e ∈ entries, '\n' ∉ e
  tab : ∀ e ∈ entries, '\t' ∈ e
  position : ∀ e ∈ entries, ∀ i,
    numberOf e = Digits.decimal i ↔ FirstHolds s (words (behindTab e)) i
  absent : ∀ e ∈ entries,
    numberOf e = ['-', '1'] ↔ ∀ w ∈ words (behindTab e), ¬ s <:+: w

/-- Nothing of an entry is left open. -/
theorem Lists.eq_map {s : Text} {ss es : List Text} (h : Lists s ss es) :
    es = ss.map fun t => (Finding.ofStatement s 0 t).entry := by
  have hentry : ∀ e ∈ es, (Finding.ofStatement s 0 (behindTab e)).entry = e := by
    intro e he
    have hnumber : (Finding.ofStatement s 0 (behindTab e)).positionText = numberOf e := by
      cases hf : firstContaining s (words (behindTab e)) with
      | none =>
        rw [(h.absent e he).mpr (firstContaining_eq_none_iff.mp hf)]
        exact (Finding.positionText_eq_minus_iff _).mpr hf
      | some i =>
        rw [(h.position e he i).mpr (firstContaining_eq_some_iff.mp hf)]
        exact (Finding.positionText_eq_decimal_iff _ i).mpr hf
    rw [Finding.entry, hnumber]
    exact numberOf_append_behindTab (h.tab e he)
  rw [← h.statement, List.map_map]
  exact ((List.map_congr_left hentry).trans (List.map_id' es)).symm

theorem listingText_eq (fs : List Finding) : listingText fs = ofLines (fs.map Finding.entry) := by
  have hline : Finding.line = fun f => f.entry ++ ['\n'] := by
    funext f
    simp [Finding.line, Finding.entry]
  rw [listingText, hline, ofLines, List.flatMap_map]

theorem map_statement_findings (s : Text) (ss : List Text) :
    (findings s ss).map Finding.statement = ss := by
  simp [findings, Finding.ofStatement, Function.comp_def]

theorem position_of_mem_findings {s : Text} {ss : List Text} {f : Finding}
    (h : f ∈ findings s ss) : f.position = firstContaining s (words f.statement) := by
  obtain ⟨p, -, rfl⟩ := List.mem_map.mp h
  rfl

/-- **Listings lose nothing.** -/
theorem lists_findings (s : Text) {ss : List Text} (h : ∀ t ∈ ss, '\n' ∉ t) :
    Lists s ss ((findings s ss).map Finding.entry) where
  statement := by
    have hcomp : behindTab ∘ Finding.entry = Finding.statement := funext Finding.behindTab_entry
    rw [List.map_map, hcomp, map_statement_findings]
  newline := by
    intro e he
    obtain ⟨f, hf, rfl⟩ := List.mem_map.mp he
    have hs : f.statement ∈ ss := by
      rw [← map_statement_findings s ss]
      exact List.mem_map_of_mem hf
    have hnumber := f.not_mem_positionText (c := '\n') (by decide) (by decide)
    simp [Finding.entry, hnumber, h _ hs]
  tab := by
    intro e he
    obtain ⟨f, -, rfl⟩ := List.mem_map.mp he
    simp [Finding.entry]
  position := by
    intro e he i
    obtain ⟨f, hf, rfl⟩ := List.mem_map.mp he
    rw [f.numberOf_entry, f.behindTab_entry, f.positionText_eq_decimal_iff,
      position_of_mem_findings hf, firstContaining_eq_some_iff]
  absent := by
    intro e he
    obtain ⟨f, hf, rfl⟩ := List.mem_map.mp he
    rw [f.numberOf_entry, f.behindTab_entry, f.positionText_eq_minus_iff,
      position_of_mem_findings hf, firstContaining_eq_none_iff]

end SpiceDeck
