import SpiceDeck.Text.Basic

/-!
# Words and trimmed texts

`words` reads back what `joinWords` writes, and cuts a text at every blank (`words_append_blank`).
A text whose ends are no blanks is its own trimmed form, so a line of words survives `trim`.
-/

namespace SpiceDeck

namespace Text

/-- A word has a character and no blank. -/
def IsWord (w : Text) : Prop := w ≠ [] ∧ ∀ c ∈ w, isBlank c = false

@[simp] theorem words_nil : words [] = [] := by
  simp [words]

theorem words_append_blank (x : Text) {b : Char} (hb : isBlank b = true) (y : Text) :
    words (x ++ b :: y) = words x ++ words y := by
  unfold words
  rw [List.splitOnP_append_cons x y hb, List.filter_append]

theorem words_cons_blank {b : Char} (hb : isBlank b = true) (t : Text) :
    words (b :: t) = words t := by
  have := words_append_blank [] hb t
  rwa [List.nil_append, words_nil, List.nil_append] at this

theorem words_isWord {w : Text} (h : IsWord w) : words w = [w] := by
  unfold words
  rw [List.splitOnP_eq_singleton h.2]
  simp [h.1]

/-- A word that a blank or the end follows is the first word. -/
theorem words_append {w : Text} (h : IsWord w) {r : Text} (hr : ∀ b ∈ r.head?, isBlank b = true) :
    words (w ++ r) = w :: words r := by
  cases r with
  | nil => simp [words_isWord h]
  | cons b r =>
    have hb : isBlank b = true := hr b rfl
    rw [words_append_blank w hb, words_isWord h, words_cons_blank hb, List.singleton_append]

theorem head?_dropWhile {α : Type} {p : α → Bool} {t : List α} :
    ∀ c ∈ (t.dropWhile p).head?, p c = false := by
  intro c hc
  have := List.head?_dropWhile_not p t
  rw [Option.mem_def.mp hc] at this
  simpa using this

/-- A list is a run of elements with `p`, up to one without. -/
theorem exists_span {α : Type} (p : α → Bool) (l : List α) :
    ∃ run rest, l = run ++ rest ∧ (∀ a ∈ run, p a = true) ∧ ∀ a ∈ rest.head?, p a = false :=
  ⟨l.takeWhile p, l.dropWhile p, List.takeWhile_append_dropWhile.symm,
    List.all_eq_true.mp List.all_takeWhile, head?_dropWhile⟩

/-- A text that begins with no blank begins with a word. -/
theorem exists_word {t : Text} (hne : t ≠ []) (h : ∀ c ∈ t.head?, isBlank c = false) :
    ∃ w r, t = w ++ r ∧ IsWord w ∧ ∀ b ∈ r.head?, isBlank b = true := by
  obtain ⟨w, r, rfl, hw, hr⟩ := exists_span (! isBlank ·) t
  refine ⟨w, r, rfl, ⟨?_, by simpa using hw⟩, by simpa using hr⟩
  rintro rfl
  obtain ⟨c, r, rfl⟩ := List.exists_cons_of_ne_nil hne
  have hc : isBlank c = true := by simpa using hr c rfl
  rw [h c rfl] at hc
  cases hc

/-- A text is empty, or begins with a blank, or with a word that a blank or the end follows. -/
@[elab_as_elim]
theorem words_induction {P : Text → Prop} (nil : P [])
    (blank : ∀ b r, isBlank b = true → P r → P (b :: r))
    (word : ∀ w r, IsWord w → (∀ b ∈ r.head?, isBlank b = true) → P r → P (w ++ r)) (t : Text) :
    P t := by
  induction hn : t.length using Nat.strongRecOn generalizing t with
  | ind n ih =>
    subst hn
    cases t with
    | nil => exact nil
    | cons c t =>
      by_cases hc : isBlank c = true
      · exact blank c t hc (ih t.length (by simp) t rfl)
      · obtain ⟨w, r, hv, hw, hr⟩ := exists_word (List.cons_ne_nil c t) (by simpa using hc)
        have hlen := List.length_pos_iff.mpr hw.1
        rw [hv] at ih ⊢
        exact word w r hw hr (ih r.length (by rw [List.length_append]; omega) r rfl)

theorem isWord_of_mem_words {w t : Text} (h : w ∈ words t) : IsWord w := by
  induction t using words_induction with
  | nil => simp at h
  | blank b r hb ih =>
    rw [words_cons_blank hb] at h
    exact ih h
  | word v r hv hr ih =>
    rw [words_append hv hr] at h
    cases h with
    | head => exact hv
    | tail _ h => exact ih h

theorem mem_of_mem_words {w t : Text} (h : w ∈ words t) {c : Char} (hc : c ∈ w) : c ∈ t := by
  induction t using words_induction with
  | nil => simp at h
  | blank b r hb ih =>
    rw [words_cons_blank hb] at h
    exact List.mem_cons_of_mem b (ih h)
  | word v r hv hr ih =>
    rw [words_append hv hr] at h
    cases h with
    | head => exact List.mem_append_left r hc
    | tail _ h => exact List.mem_append_right v (ih h)

/-! ## Words with spaces between -/

theorem isBlank_space : isBlank ' ' = true := by decide

@[simp] theorem joinWords_nil : joinWords [] = [] := rfl

@[simp] theorem joinWords_singleton (w : Text) : joinWords [w] = w := List.intercalate_singleton

theorem joinWords_cons {ws : List Text} (w : Text) (h : ws ≠ []) :
    joinWords (w :: ws) = w ++ ' ' :: joinWords ws := by
  unfold joinWords
  rw [List.intercalate_cons_of_ne_nil h, List.append_assoc, List.singleton_append]

/-- The words after the first, each with a space in front. -/
theorem joinWords_cons_eq (w : Text) (ws : List Text) :
    joinWords (w :: ws) = w ++ ws.flatMap fun v => ' ' :: v := by
  induction ws generalizing w with
  | nil => simp
  | cons v ws ih => rw [joinWords_cons w (by simp), ih, List.flatMap_cons, List.cons_append]

theorem head?_flatMap_space {α : Type} (f : α → Text) (xs : List α) :
    ∀ b ∈ (xs.flatMap fun x => ' ' :: f x).head?, isBlank b = true := by
  intro b hb
  cases xs with
  | nil => cases hb
  | cons x xs =>
    cases hb
    exact isBlank_space

theorem joinWords_append {vs ws : List Text} (hv : vs ≠ []) (hw : ws ≠ []) :
    joinWords (vs ++ ws) = joinWords vs ++ ' ' :: joinWords ws := by
  obtain ⟨v, vs, rfl⟩ := List.exists_cons_of_ne_nil hv
  obtain ⟨w, ws, rfl⟩ := List.exists_cons_of_ne_nil hw
  simp [joinWords_cons_eq]

theorem joinWords_append_flatten {vs : List Text} (hv : vs ≠ []) {ls : List (List Text)}
    (h : ∀ ws ∈ ls, ws ≠ []) :
    joinWords (vs ++ ls.flatten) = joinWords vs ++ ls.flatMap fun ws => ' ' :: joinWords ws := by
  induction ls generalizing vs with
  | nil => simp
  | cons ws ls ih =>
    have hw := h ws (List.mem_cons_self ..)
    have ih := @ih (vs ++ ws) (by simp [hv]) fun u hu => h u (List.mem_cons_of_mem _ hu)
    rw [List.flatten_cons, ← List.append_assoc, ih, joinWords_append hv hw]
    simp

theorem words_joinWords {ws : List Text} (h : ∀ w ∈ ws, IsWord w) : words (joinWords ws) = ws := by
  induction ws with
  | nil => simp
  | cons w ws ih =>
    have hw := h w (List.mem_cons_self ..)
    cases ws with
    | nil => rw [joinWords_singleton, words_isWord hw]
    | cons v ws =>
      rw [joinWords_cons w (by simp), words_append_blank w isBlank_space, words_isWord hw,
        ih fun u hu => h u (List.mem_cons_of_mem _ hu), List.singleton_append]

theorem head?_joinWords {w : Text} (h : IsWord w) (ws : List Text) :
    (joinWords (w :: ws)).head? = w.head? := by
  obtain ⟨c, w, rfl⟩ := List.exists_cons_of_ne_nil h.1
  rw [joinWords_cons_eq]
  rfl

theorem getLast?_joinWords {ws : List Text} (h : ∀ w ∈ ws, IsWord w) :
    ∀ c ∈ (joinWords ws).getLast?, isBlank c = false := by
  induction ws with
  | nil => simp
  | cons w ws ih =>
    have hw := h w (List.mem_cons_self ..)
    cases ws with
    | nil =>
      intro c hc
      rw [joinWords_singleton] at hc
      exact hw.2 c (List.mem_of_getLast? hc)
    | cons v ws =>
      rw [joinWords_cons w (by simp)]
      have hne : joinWords (v :: ws) ≠ [] := by
        have hv := h v (by simp)
        intro e
        have := head?_joinWords hv ws
        rw [e, List.head?_nil, eq_comm, List.head?_eq_none_iff] at this
        exact hv.1 this
      intro c hc
      rw [List.getLast?_append, List.getLast?_cons_of_ne_nil hne] at hc
      refine ih (fun u hu => h u (List.mem_cons_of_mem _ hu)) c ?_
      obtain ⟨d, hd⟩ := Option.ne_none_iff_exists'.mp (mt List.getLast?_eq_none_iff.mp hne)
      rw [hd] at hc ⊢
      simpa using hc

theorem not_mem_joinWords {ws : List Text} (h : ∀ w ∈ ws, IsWord w) {b : Char}
    (hb : isBlank b = true) (hs : b ≠ ' ') : b ∉ joinWords ws := by
  induction ws with
  | nil => simp
  | cons w ws ih =>
    have hw : b ∉ w := fun hm => by
      have := (h w (List.mem_cons_self ..)).2 b hm
      rw [hb] at this; cases this
    cases ws with
    | nil => rwa [joinWords_singleton]
    | cons v ws =>
      rw [joinWords_cons w (by simp), List.mem_append, List.mem_cons]
      have := ih fun u hu => h u (List.mem_cons_of_mem _ hu)
      simp [hw, hs, this]

/-! ## Trimming -/

/-- A line as an assembly takes it: trimmed, and not blank. -/
def IsTrimmed (t : Text) : Prop := trim t = t ∧ t ≠ []

theorem dropWhile_eq_self {p : Char → Bool} {t : Text} (h : ∀ c ∈ t.head?, p c = false) :
    t.dropWhile p = t := by
  cases t with
  | nil => rfl
  | cons c t => simp [h c rfl]

theorem trim_eq_self {t : Text} (h : ∀ c ∈ t.head?, isBlank c = false)
    (h' : ∀ c ∈ t.getLast?, isBlank c = false) : trim t = t := by
  unfold trim trimLeft trimRight
  rw [dropWhile_eq_self h, dropWhile_eq_self (by simpa using h'), List.reverse_reverse]

theorem getLast?_trim (t : Text) : ∀ c ∈ (trim t).getLast?, isBlank c = false := by
  unfold trim trimRight
  rw [List.getLast?_reverse]
  exact head?_dropWhile

theorem trimRight_prefix (t : Text) : trimRight t <+: t := by
  unfold trimRight
  rw [← List.reverse_suffix, List.reverse_reverse]
  exact List.dropWhile_suffix _

theorem trim_prefix_trimLeft (t : Text) : trim t <+: trimLeft t := trimRight_prefix (trimLeft t)

theorem mem_of_mem_trim {t : Text} {c : Char} (h : c ∈ trim t) : c ∈ t :=
  (List.dropWhile_sublist isBlank).subset ((trim_prefix_trimLeft t).subset h)

theorem head?_trim (t : Text) : ∀ c ∈ (trim t).head?, isBlank c = false := by
  intro c hc
  refine head?_dropWhile (p := isBlank) (t := t) c ?_
  obtain ⟨r, hr⟩ := trim_prefix_trimLeft t
  rw [show t.dropWhile isBlank = trimLeft t from rfl, ← hr]
  cases ht : trim t with
  | nil => rw [ht] at hc; cases hc
  | cons d s => rw [ht] at hc; exact hc

theorem trim_trim (t : Text) : trim (trim t) = trim t :=
  trim_eq_self (head?_trim t) (getLast?_trim t)

theorem words_trimLeft (t : Text) : words (trimLeft t) = words t := by
  induction t with
  | nil => rfl
  | cons c t ih =>
    unfold trimLeft at ih ⊢
    by_cases hc : isBlank c = true
    · rw [List.dropWhile_cons_of_pos hc, ih, words_cons_blank hc]
    · rw [List.dropWhile_cons_of_neg hc]

/-- The first character that is no blank is the first one of the first word. -/
theorem head?_trimLeft (t : Text) : (trimLeft t).head? = (words t).head?.bind List.head? := by
  rw [← words_trimLeft]
  by_cases ht : trimLeft t = []
  · rw [ht]
    simp
  · obtain ⟨w, r, he, hw, hr⟩ := exists_word ht head?_dropWhile
    obtain ⟨c, w, rfl⟩ := List.exists_cons_of_ne_nil hw.1
    rw [he, words_append hw hr]
    rfl

theorem trimRight_append_blank (t : Text) {b : Char} (hb : isBlank b = true) :
    trimRight (t ++ [b]) = trimRight t := by
  simp [trimRight, hb]

theorem trimRight_trimRight (t : Text) : trimRight (trimRight t) = trimRight t := by
  unfold trimRight
  rw [List.reverse_reverse, dropWhile_eq_self head?_dropWhile]

theorem trimRight_eq_trim {t : Text} (h : ∀ c ∈ t.head?, isBlank c = false) :
    trimRight t = trim t := by
  unfold trim trimLeft
  rw [dropWhile_eq_self h]

theorem words_append_blanks (t : Text) {bs : Text} (h : ∀ b ∈ bs, isBlank b = true) :
    words (t ++ bs) = words t := by
  induction bs generalizing t with
  | nil => rw [List.append_nil]
  | cons b bs ih =>
    have hb := h b (List.mem_cons_self ..)
    have ih := ih [] fun c hc => h c (List.mem_cons_of_mem _ hc)
    rw [List.nil_append, words_nil] at ih
    rw [words_append_blank t hb, ih, List.append_nil]

theorem words_trimRight (t : Text) : words (trimRight t) = words t := by
  have hcut : trimRight t ++ (t.reverse.takeWhile isBlank).reverse = t := by
    rw [trimRight, ← List.reverse_append, List.takeWhile_append_dropWhile, List.reverse_reverse]
  have hb : ∀ b ∈ (t.reverse.takeWhile isBlank).reverse, isBlank b = true := by
    intro b hb
    exact List.all_eq_true.mp List.all_takeWhile b (List.mem_reverse.mp hb)
  have h := words_append_blanks (trimRight t) hb
  rw [hcut] at h
  exact h.symm

theorem words_trim (t : Text) : words (trim t) = words t := by
  rw [trim, words_trimRight, words_trimLeft]

theorem trim_append_blank (t : Text) {b : Char} (hb : isBlank b = true) :
    trim (t ++ [b]) = trim t := by
  unfold trim trimLeft
  rw [List.dropWhile_append]
  split
  · rename_i h
    rw [List.isEmpty_iff.mp h]
    simp [hb, trimRight]
  · rw [trimRight_append_blank _ hb]

theorem trimRight_append_word {w : Text} (hw : IsWord w) (t : Text) :
    trimRight (w ++ t) = w ++ trimRight t := by
  unfold trimRight
  rw [List.reverse_append, List.dropWhile_append]
  split
  · rename_i h
    have hlast : ∀ c ∈ w.reverse.head?, isBlank c = false := by
      intro c hc
      exact hw.2 c (List.mem_reverse.mp (List.mem_of_head? hc))
    rw [dropWhile_eq_self hlast, List.isEmpty_iff.mp h, List.reverse_reverse]
    simp
  · rw [List.reverse_append, List.reverse_reverse]

theorem trim_append_word {w : Text} (hw : IsWord w) (t : Text) :
    trim (w ++ t) = w ++ trimRight t := by
  have hhead : ∀ c ∈ (w ++ t).head?, isBlank c = false := by
    obtain ⟨c, w, rfl⟩ := List.exists_cons_of_ne_nil hw.1
    exact fun d hd => hw.2 d (List.mem_of_head? hd)
  rw [← trimRight_eq_trim hhead, trimRight_append_word hw]

theorem IsTrimmed.head {t : Text} (h : IsTrimmed t) : ∀ c ∈ t.head?, isBlank c = false := by
  rw [← h.1]
  exact head?_trim t

theorem isTrimmed_joinWords {w : Text} {ws : List Text} (h : ∀ v ∈ w :: ws, IsWord v) :
    IsTrimmed (joinWords (w :: ws)) := by
  have hw := h w (List.mem_cons_self ..)
  have hh := head?_joinWords hw ws
  refine ⟨trim_eq_self (fun c hc => ?_) (getLast?_joinWords h), fun e => ?_⟩
  · rw [hh] at hc
    exact hw.2 c (List.mem_of_head? hc)
  · rw [e, List.head?_nil, eq_comm, List.head?_eq_none_iff] at hh
    exact hw.1 hh

theorem isTrimmed_of_mem_trimmedLines {ls : List Text} {l : Text} (h : l ∈ trimmedLines ls) :
    IsTrimmed l := by
  obtain ⟨hm, hne⟩ := List.mem_filter.mp h
  obtain ⟨t, _, rfl⟩ := List.mem_map.mp hm
  exact ⟨trim_trim t, by simpa using hne⟩

theorem trimmedLines_eq_self {ls : List Text} (h : ∀ l ∈ ls, IsTrimmed l) :
    trimmedLines ls = ls := by
  unfold trimmedLines
  rw [List.map_congr_left (fun l hl => (h l hl).1), List.map_id']
  rw [List.filter_eq_self]
  intro l hl
  simpa using (h l hl).2

end Text

end SpiceDeck
