import SpiceDeck.Proofs.Text.Words

/-!
# Lines of a text

`lines` one line at a time, and the text that is written for lines: each with a newline behind it.
-/

namespace SpiceDeck

namespace Text

/-- The lines with a newline behind each. -/
def ofLines (ls : List Text) : Text := ls.flatMap fun l => l ++ ['\n']

@[simp] theorem ofLines_nil : ofLines [] = [] := rfl

theorem ofLines_cons (l : Text) (ls : List Text) : ofLines (l :: ls) = l ++ '\n' :: ofLines ls := by
  simp [ofLines]

theorem ofLines_append (ls ms : List Text) : ofLines (ls ++ ms) = ofLines ls ++ ofLines ms := by
  simp [ofLines]

@[simp] theorem lines_nil : lines [] = [] := by
  simp [lines, List.splitOn_eq_splitOnP]

theorem lines_append_newline {l : Text} (h : '\n' ∉ l) (t : Text) :
    lines (l ++ '\n' :: t) = dropReturn l :: lines t := by
  unfold lines
  rw [List.splitOn_append_cons_self_of_not_mem h]
  obtain ⟨p, ps, hp⟩ := List.exists_cons_of_ne_nil (List.splitOn_ne_nil '\n' t)
  simp [hp]

theorem lines_of_not_mem {l : Text} (h : '\n' ∉ l) (hne : l ≠ []) : lines l = [l] := by
  unfold lines
  rw [List.splitOn_eq_singleton h]
  simp [hne]

/-- A text is without a separator, or it is a piece with its separator and a text. -/
@[elab_as_elim]
theorem pieces_induction (separator : Char) {P : Text → Prop} (last : ∀ l, separator ∉ l → P l)
    (piece : ∀ l r, separator ∉ l → P r → P (l ++ separator :: r)) (t : Text) : P t := by
  induction hn : t.length using Nat.strongRecOn generalizing t with
  | ind n ih =>
    by_cases h : separator ∈ t
    · obtain ⟨l, r, rfl, hl⟩ := List.eq_append_cons_of_mem h
      have hlen : r.length < n := by
        rw [← hn, List.length_append, List.length_cons]
        omega
      exact piece l r hl (ih r.length hlen r rfl)
    · exact last t h

/-- A text is empty, or a last line without newline, or a line with its newline and a text. -/
@[elab_as_elim]
theorem lines_induction {P : Text → Prop} (nil : P []) (last : ∀ l, '\n' ∉ l → l ≠ [] → P l)
    (line : ∀ l r, '\n' ∉ l → P r → P (l ++ '\n' :: r)) (t : Text) : P t := by
  induction t using pieces_induction '\n' with
  | last l hl =>
    by_cases hne : l = []
    · rw [hne]
      exact nil
    · exact last l hl hne
  | piece l r hl ih => exact line l r hl ih

theorem lines_eq_nil_iff {t : Text} : lines t = [] ↔ t = [] := by
  induction t using lines_induction with
  | nil => simp
  | last l hl hne => simp [lines_of_not_mem hl hne, hne]
  | line l r hl ih => simp [lines_append_newline hl]

/-- Each newline ends a line, and what follows the last one is a line if there is anything. -/
theorem length_lines (t : Text) :
    (lines t).length = t.count '\n' + if t.getLast?.all (· == '\n') then 0 else 1 := by
  induction t using lines_induction with
  | nil => simp
  | last l hl hne =>
    have hlast : l.getLast?.all (· == '\n') = false := by
      have hn : l.getLast hne ≠ '\n' := fun e => hl (e ▸ List.getLast_mem hne)
      simp [List.getLast?_eq_some_getLast hne, hn]
    rw [lines_of_not_mem hl hne, List.count_eq_zero_of_not_mem hl, hlast]
    rfl
  | line l r hl ih =>
    have hlast : (l ++ '\n' :: r).getLast?.all (· == '\n') = r.getLast?.all (· == '\n') := by
      rw [List.getLast?_append, List.getLast?_cons]
      cases r.getLast? <;> rfl
    rw [lines_append_newline hl, List.length_cons, ih, hlast, List.count_append,
      List.count_eq_zero_of_not_mem hl, List.count_cons_self]
    omega

theorem mem_of_mem_dropReturn {l : Text} {c : Char} (h : c ∈ dropReturn l) : c ∈ l := by
  unfold dropReturn at h
  split at h
  · exact (List.dropLast_sublist l).subset h
  · exact h

theorem not_mem_of_mem_lines {t l : Text} (h : l ∈ lines t) : '\n' ∉ l := by
  induction t using lines_induction with
  | nil => simp at h
  | last m hm hne =>
    rw [lines_of_not_mem hm hne] at h
    rw [List.mem_singleton.mp h]
    exact hm
  | line m r hm ih =>
    rw [lines_append_newline hm] at h
    cases h with
    | head => exact fun hc => hm (mem_of_mem_dropReturn hc)
    | tail _ h => exact ih h

theorem mem_of_mem_lines {t l : Text} (h : l ∈ lines t) {c : Char} (hc : c ∈ l) : c ∈ t := by
  induction t using lines_induction with
  | nil => simp at h
  | last m hm hne =>
    rw [lines_of_not_mem hm hne] at h
    exact List.mem_singleton.mp h ▸ hc
  | line m r hm ih =>
    rw [lines_append_newline hm] at h
    cases h with
    | head => exact List.mem_append_left _ (mem_of_mem_dropReturn hc)
    | tail _ h => exact List.mem_append_right m (List.mem_cons_of_mem _ (ih h))

theorem count_newline_ofLines {ls : List Text} (h : ∀ l ∈ ls, '\n' ∉ l) :
    (ofLines ls).count '\n' = ls.length := by
  induction ls with
  | nil => rfl
  | cons l ls ih =>
    have hl := h l (List.mem_cons_self ..)
    rw [ofLines_cons, List.count_append, List.count_eq_zero_of_not_mem hl, List.count_cons_self,
      ih fun m hm => h m (List.mem_cons_of_mem _ hm), Nat.zero_add, List.length_cons]

theorem lines_ofLines {ls : List Text} (h : ∀ l ∈ ls, '\n' ∉ l) :
    lines (ofLines ls) = ls.map dropReturn := by
  induction ls with
  | nil => simp
  | cons l ls ih =>
    rw [ofLines_cons, lines_append_newline (h l (List.mem_cons_self ..)),
      ih fun m hm => h m (List.mem_cons_of_mem _ hm), List.map_cons]

/-! ## Lines as an assembly takes them -/

theorem isBlank_newline : isBlank '\n' = true := by decide

theorem isBlank_return : isBlank '\r' = true := by decide

theorem trim_dropReturn (l : Text) : trim (dropReturn l) = trim l := by
  unfold dropReturn
  by_cases h : l.getLast? = some '\r'
  · rw [if_pos h]
    obtain ⟨k, rfl⟩ := List.getLast?_eq_some_iff.mp h
    rw [List.dropLast_concat, trim_append_blank k isBlank_return]
  · rw [if_neg h]

theorem trimmedLines_map_dropReturn (ls : List Text) :
    trimmedLines (ls.map dropReturn) = trimmedLines ls := by
  simp [trimmedLines, Function.comp_def, trim_dropReturn]

theorem dropReturn_eq_self {l : Text} (h : IsTrimmed l) : dropReturn l = l := by
  unfold dropReturn
  rw [if_neg]
  intro hr
  have := getLast?_trim l '\r'
  rw [h.1, isBlank_return] at this
  cases this hr

@[simp] theorem trimmedLines_nil : trimmedLines [] = [] := rfl

theorem trimmedLines_cons (l : Text) (ls : List Text) :
    trimmedLines (l :: ls) = if trim l = [] then trimmedLines ls else trim l :: trimmedLines ls := by
  by_cases h : trim l = [] <;> simp [trimmedLines, h]

theorem trimmedLines_append (ls ms : List Text) :
    trimmedLines (ls ++ ms) = trimmedLines ls ++ trimmedLines ms := by
  simp [trimmedLines]

theorem fst_nextTrimmed (ls : List Text) : (nextTrimmed ls).1 = (trimmedLines ls).head? := by
  induction ls with
  | nil => rfl
  | cons l ls ih => by_cases h : trim l = [] <;> simp [nextTrimmed, trimmedLines_cons, h, ih]

theorem trimmedLines_nextTrimmed (ls : List Text) :
    trimmedLines (nextTrimmed ls).2 = (trimmedLines ls).tail := by
  induction ls with
  | nil => rfl
  | cons l ls ih => by_cases h : trim l = [] <;> simp [nextTrimmed, trimmedLines_cons, h, ih]

theorem nextTrimmed_of_blank {ls : List Text} (h : trimmedLines ls = []) :
    nextTrimmed ls = (none, []) := by
  induction ls with
  | nil => rfl
  | cons l ls ih =>
    rw [trimmedLines_cons] at h
    by_cases hl : trim l = []
    · rw [if_pos hl] at h
      simp [nextTrimmed, hl, ih h]
    · rw [if_neg hl] at h
      cases h

theorem exists_of_mem_trimmedLines {ls : List Text} {l : Text} (h : l ∈ trimmedLines ls) :
    ∃ m ∈ ls, ∀ c ∈ l, c ∈ m := by
  obtain ⟨m, hm, rfl⟩ := List.mem_map.mp (List.mem_filter.mp h).1
  exact ⟨m, hm, fun _ => mem_of_mem_trim⟩

theorem not_mem_of_mem_trimmedLines {t l : Text} (h : l ∈ trimmedLines (lines t)) : '\n' ∉ l := by
  obtain ⟨m, hm, hsub⟩ := exists_of_mem_trimmedLines h
  exact fun hc => not_mem_of_mem_lines hm (hsub _ hc)

/-- Written lines are taken as they were before. -/
theorem trimmedLines_lines_ofLines {ls : List Text} (h : ∀ l ∈ ls, '\n' ∉ l) :
    trimmedLines (lines (ofLines ls)) = trimmedLines ls := by
  rw [lines_ofLines h, trimmedLines_map_dropReturn]

end Text

end SpiceDeck
