import SpiceDeck.Statement.Sequence
import SpiceDeck.Proofs.Text.Lines

/-!
# Runs of an assembly

Taking out what is released does not change what is released later (`collect_eq`), so the statements
of a deck are what is ready at its end. `yields` is the rule for them without the counts, one line at
a time, with a statement in flight; `statements_start` starts it.
-/

namespace SpiceDeck

namespace Assembly

def pushAll (a : Assembly) (lines : List Text) : Assembly := lines.foldl push a

@[simp] theorem pushAll_nil (a : Assembly) : a.pushAll [] = a := rfl

@[simp] theorem pushAll_cons (a : Assembly) (l : Text) (ls : List Text) :
    a.pushAll (l :: ls) = (a.push l).pushAll ls := rfl

theorem pushAll_append (a : Assembly) (ls ms : List Text) :
    a.pushAll (ls ++ ms) = (a.pushAll ls).pushAll ms := by
  simp [pushAll]

/-! ## Released statements stay out of the way -/

/-- The assembly with statements in front of those that are ready. -/
def after (released : List Text) (a : Assembly) : Assembly :=
  { a with ready := released ++ a.ready }

section
variable (r : List Text) (a : Assembly)

theorem after_after (q : List Text) : (a.after r).after q = a.after (q ++ r) := by
  simp [after]

theorem queue_after (ss : List Text) : (a.after r).queue ss = (a.queue ss).after r := by
  simp [queue, after]

theorem release_after : (a.after r).release = a.release.after r :=
  queue_after r { a with pending := none, held := [] } (a.pending.toList ++ a.held)

theorem begin_after (l : Text) : (a.after r).begin l = (a.begin l).after r := by
  simp only [begin, release_after]
  rfl

theorem take_after (l : Text) : (a.after r).take l = (a.take l).after r := by
  simp only [take]
  by_cases hc : continuesStatement l = true
  · rw [if_pos hc, if_pos hc]; rfl
  rw [if_neg hc, if_neg hc]
  by_cases hh : (a.countLine.holds && isCommentLine l) = true
  · rw [if_pos hh]; exact if_pos hh
  · rw [if_neg hh]; exact (if_neg hh).trans (begin_after r a.countLine l)

theorem push_after (l : Text) : (a.after r).push l = (a.push l).after r := by
  simp only [push]
  by_cases h : ((Text.trim l).isEmpty || a.finished) = true
  · rw [if_pos h]; exact if_pos h
  · rw [if_neg h]; exact (if_neg h).trans (take_after r a _)

theorem pushAll_after (ls : List Text) : (a.after r).pushAll ls = (a.pushAll ls).after r := by
  induction ls generalizing a with
  | nil => rfl
  | cons l ls ih => rw [pushAll_cons, push_after, ih, pushAll_cons]

theorem finish_after : (a.after r).finish = a.finish.after r := by
  simp only [finish]
  by_cases h : a.finished = true
  · rw [if_pos h]; exact if_pos h
  rw [if_neg h]
  refine (if_neg h).trans ?_
  by_cases he : (a.pending.isNone && a.options.emptyDeck == .emptyLine) = true
  · rw [if_pos he]; exact (if_pos he).trans (queue_after r { a with finished := true } [[]])
  · rw [if_neg he]; exact (if_neg he).trans (release_after r { a with finished := true })

end

theorem collect_eq (done : Array Text) (a : Assembly) (ls : List Text) :
    collect done a ls =
      (done ++ (a.pushAll ls).finish.ready, { (a.pushAll ls).finish with ready := [] }) := by
  induction ls generalizing done a with
  | nil => rfl
  | cons l ls ih =>
    have hp : a.push l = { a.push l with ready := [] }.after (a.push l).ready := by simp [after]
    rw [pushAll_cons, hp, pushAll_after, finish_after, collect]
    simp only [drain, ih, after, Prod.mk.injEq, and_true]
    exact Array.ext' (by simp)

theorem assemble_eq (options : Options) (ls : List Text) :
    assemble options ls =
      (((start options).pushAll ls).finish.ready, ((start options).pushAll ls).finish.counts) := by
  simp [assemble, collect_eq]

/-! ## Lines as they are taken -/

theorem push_blank (a : Assembly) {l : Text} (h : Text.trim l = []) : a.push l = a := by
  simp [push, h]

theorem push_trim (a : Assembly) (l : Text) : a.push (Text.trim l) = a.push l := by
  simp only [push, Text.trim_trim]

theorem push_eq_take {a : Assembly} (hf : a.finished = false) {l : Text} (h : Text.IsTrimmed l) :
    a.push l = a.take l := by
  simp [push, h.1, h.2, hf]

/-- Trimming and dropping blank lines first changes nothing. -/
theorem pushAll_trimmedLines (a : Assembly) (ls : List Text) :
    a.pushAll (Text.trimmedLines ls) = a.pushAll ls := by
  induction ls generalizing a with
  | nil => rfl
  | cons l ls ih =>
    rw [Text.trimmedLines_cons]
    by_cases h : Text.trim l = []
    · rw [if_pos h, pushAll_cons, push_blank a h, ih]
    · rw [if_neg h, pushAll_cons, pushAll_cons, push_trim, ih]

section
variable {a : Assembly} {l : Text}

theorem take_continuation (h : continuesStatement l = true) : a.take l = a.countLine.join l := by
  simp only [take]
  rw [if_pos h]

theorem take_held (h : ¬ continuesStatement l = true)
    (hh : (a.continuing && a.options.comments == .hold && isCommentLine l) = true) :
    a.take l = a.countLine.holdComment l := by
  simp only [take]
  rw [if_neg h]
  exact if_pos hh

theorem take_start (h : ¬ continuesStatement l = true)
    (hh : ¬ (a.continuing && a.options.comments == .hold && isCommentLine l) = true) :
    a.take l = a.countLine.begin l := by
  simp only [take]
  rw [if_neg h]
  exact if_neg hh

end

end Assembly

/-! ## What is released, line by line -/

/-- What is released from here on, with `p` in flight. -/
def yields (policy : CommentPolicy) : Text → Bool → List Text → List Text → List Text
  | p, _, held, [] => p :: held
  | p, continuing, held, l :: ls =>
    if continuesStatement l then yields policy (p ++ joinSign :: continuationBody l) true held ls
    else if continuing && policy == .hold && isCommentLine l then yields policy p true (held ++ [l]) ls
    else p :: (held ++ yields policy l false [] ls)

/-- A statement with continuations put to it. -/
def joined (p : Text) (ks : List Text) : Text :=
  p ++ ks.flatMap fun k => joinSign :: continuationBody k

@[simp] theorem joined_nil (p : Text) : joined p [] = p := by
  simp [joined]

theorem joined_cons (p k : Text) (ks : List Text) :
    joined p (k :: ks) = joined (p ++ joinSign :: continuationBody k) ks := by
  simp [joined]

section
variable {policy : CommentPolicy} {p : Text} {continuing : Bool} {held : List Text}

theorem yields_continuation {k : Text} (h : continuesStatement k = true) (ls : List Text) :
    yields policy p continuing held (k :: ls) =
      yields policy (p ++ joinSign :: continuationBody k) true held ls := by
  rw [yields, if_pos h]

theorem yields_continuations {ks : List Text} (h : ∀ k ∈ ks, continuesStatement k = true)
    (ls : List Text) :
    yields policy p continuing held (ks ++ ls) =
      yields policy (joined p ks) (continuing || !ks.isEmpty) held ls := by
  induction ks generalizing p continuing with
  | nil => simp
  | cons k ks ih =>
    rw [List.cons_append, yields_continuation (h k (List.mem_cons_self ..)),
      ih fun m hm => h m (List.mem_cons_of_mem _ hm), joined_cons]
    simp

/-- The statement in flight comes first, with what is put to it on the way. -/
theorem exists_yields (policy : CommentPolicy) (p : Text) (continuing : Bool)
    (held ls : List Text) :
    ∃ e rest, yields policy p continuing held ls = (p ++ e) :: rest := by
  induction ls generalizing p continuing held with
  | nil => exact ⟨[], held, by simp [yields]⟩
  | cons l ls ih =>
    rw [yields]
    split
    · obtain ⟨e, rest, he⟩ := ih (p ++ joinSign :: continuationBody l) true held
      exact ⟨joinSign :: continuationBody l ++ e, rest, by rw [he, List.append_assoc]⟩
    split
    · exact ih p true (held ++ [l])
    · exact ⟨[], _, by rw [List.append_nil]⟩

theorem yields_ne_nil {ls : List Text} : yields policy p continuing held ls ≠ [] := by
  obtain ⟨e, rest, he⟩ := exists_yields policy p continuing held ls
  rw [he]
  exact List.cons_ne_nil _ _

theorem yields_held {l : Text} (hl : continuesStatement l = false)
    (h : (continuing && policy == .hold && isCommentLine l) = true) (ls : List Text) :
    yields policy p continuing held (l :: ls) = yields policy p true (held ++ [l]) ls := by
  rw [yields, if_neg (by simp [hl]), if_pos h]

theorem yields_start {l : Text} (hl : continuesStatement l = false)
    (h : (continuing && policy == .hold && isCommentLine l) = false) (ls : List Text) :
    yields policy p continuing held (l :: ls) = p :: (held ++ yields policy l false [] ls) := by
  rw [yields, if_neg (by simp [hl]), if_neg (by simp [h])]

end

/-- What holds of the lines that begin a statement, and stays when a line is joined, holds of all that
is released. -/
theorem forall_mem_yields {P : Text → Prop} {policy : CommentPolicy} {ls : List Text}
    (begins : ∀ l ∈ ls, continuesStatement l = false → P l)
    (joins : ∀ p, ∀ l ∈ ls, P p → P (p ++ joinSign :: continuationBody l)) :
    ∀ {p : Text} {continuing : Bool} {held : List Text}, P p → (∀ s ∈ held, P s) →
      ∀ s ∈ yields policy p continuing held ls, P s := by
  induction ls with
  | nil =>
    intro p _ held hp hh s hs
    cases hs with
    | head => exact hp
    | tail _ hs => exact hh s hs
  | cons l ls ih =>
    intro p continuing held hp hh s hs
    have hl := List.mem_cons_self (a := l) (l := ls)
    have ih := @ih (fun m hm => begins m (List.mem_cons_of_mem _ hm))
      fun q m hm => joins q m (List.mem_cons_of_mem _ hm)
    rw [yields] at hs
    by_cases hc : continuesStatement l = true
    · rw [if_pos hc] at hs
      exact ih (joins p l hl hp) hh s hs
    have hst : P l := begins l hl (by simpa using hc)
    by_cases hh' : (continuing && policy == .hold && isCommentLine l) = true
    · rw [if_neg hc, if_pos hh'] at hs
      refine ih hp (fun x hx => ?_) s hs
      rcases List.mem_append.mp hx with hx | hx
      · exact hh x hx
      · rw [List.mem_singleton.mp hx]
        exact hst
    · rw [if_neg hc, if_neg hh', List.mem_cons, List.mem_append] at hs
      rcases hs with hs | hs | hs
      · rw [hs]
        exact hp
      · exact hh s hs
      · exact ih hst (by simp) s hs

/-- Without continuations every line is released as it is. -/
theorem yields_begun {policy : CommentPolicy} {ls : List Text}
    (h : ∀ l ∈ ls, continuesStatement l = false) (p : Text) :
    yields policy p false [] ls = p :: ls := by
  induction ls generalizing p with
  | nil => rfl
  | cons l ls ih =>
    rw [yields_start (h l (List.mem_cons_self ..)) rfl, ih fun m hm => h m (List.mem_cons_of_mem _ hm)]
    rfl

open Assembly

theorem ready_pushAll {ls : List Text} (hl : ∀ l ∈ ls, Text.IsTrimmed l) :
    ∀ {a : Assembly} {p : Text}, a.finished = false → a.pending = some p →
      (a.pushAll ls).finish.ready = a.ready ++ yields a.options.comments p a.continuing a.held ls := by
  induction ls with
  | nil =>
    intro a p hf hp
    simp [finish, hf, hp, release, queue, yields]
  | cons l ls ih =>
    intro a p hf hp
    have ih := @ih fun m hm => hl m (List.mem_cons_of_mem _ hm)
    rw [pushAll_cons, push_eq_take hf (hl l (List.mem_cons_self ..)), yields]
    by_cases hc : continuesStatement l = true
    · have hj : (a.countLine.join l).pending = some (p ++ joinSign :: continuationBody l) := by
        simp [join, countLine, hp]
      rw [take_continuation hc, if_pos hc, ih (a := a.countLine.join l) hf hj]
      rfl
    by_cases hh : (a.continuing && a.options.comments == .hold && isCommentLine l) = true
    · have hcont : a.continuing = true := by
        simp only [Bool.and_eq_true] at hh
        exact hh.1.1
      rw [take_held hc hh, if_neg hc, if_pos hh, ih (a := a.countLine.holdComment l) hf hp, ← hcont]
      rfl
    · rw [take_start hc hh, if_neg hc, if_neg hh, ih (a := a.countLine.begin l) hf rfl]
      simp [begin, release, queue, countLine, hp]

section
variable {options : Options} {ls : List Text}

theorem statements_eq_ready :
    statements options ls = ((start options).pushAll (Text.trimmedLines ls)).finish.ready := by
  rw [statements, assemble_eq, pushAll_trimmedLines]

theorem statements_trimmedLines :
    statements options (Text.trimmedLines ls) = statements options ls := by
  rw [statements, assemble_eq, pushAll_trimmedLines, statements, assemble_eq]

theorem assemble_congr (options : Options) {ls ms : List Text}
    (h : Text.trimmedLines ls = Text.trimmedLines ms) : assemble options ls = assemble options ms := by
  rw [assemble_eq, assemble_eq, ← pushAll_trimmedLines, h, pushAll_trimmedLines]

/-- A deck without lines. -/
theorem statements_blank (h : Text.trimmedLines ls = []) :
    statements options ls = if options.emptyDeck = .emptyLine then [[]] else [] := by
  rw [statements_eq_ready, h, pushAll_nil]
  by_cases he : options.emptyDeck = .emptyLine <;> simp [start, finish, release, queue, he]

/-- A deck that begins with a statement. -/
theorem statements_start {l : Text} {rest : List Text} (h : Text.trimmedLines ls = l :: rest)
    (hl : continuesStatement l = false) :
    statements options ls = yields options.comments l false [] rest := by
  have htrim : ∀ m ∈ l :: rest, Text.IsTrimmed m :=
    fun m hm => Text.isTrimmed_of_mem_trimmedLines (h ▸ hm)
  rw [statements_eq_ready, h, pushAll_cons, push_eq_take rfl (htrim l (List.mem_cons_self ..)),
    take_start (by simp [hl]) (by simp [start]),
    ready_pushAll (fun m hm => htrim m (List.mem_cons_of_mem _ hm)) rfl rfl]
  rfl

/-- A deck that begins with a continuation, which continues the empty statement. -/
theorem statements_continuation {l : Text} {rest : List Text}
    (h : Text.trimmedLines ls = l :: rest) (hl : continuesStatement l = true) :
    statements options ls = yields options.comments [] false [] (l :: rest) := by
  have htrim : ∀ m ∈ l :: rest, Text.IsTrimmed m :=
    fun m hm => Text.isTrimmed_of_mem_trimmedLines (h ▸ hm)
  rw [statements_eq_ready, h, pushAll_cons, push_eq_take rfl (htrim l (List.mem_cons_self ..)),
    take_continuation hl, ready_pushAll (fun m hm => htrim m (List.mem_cons_of_mem _ hm)) rfl rfl,
    yields_continuation hl]
  rfl

/-- A deck without continuations gives its lines. -/
theorem statements_begun (hne : Text.trimmedLines ls ≠ [])
    (h : ∀ l ∈ Text.trimmedLines ls, continuesStatement l = false) :
    statements options ls = Text.trimmedLines ls := by
  obtain ⟨l, rest, hl⟩ := List.exists_cons_of_ne_nil hne
  rw [hl] at h
  rw [statements_start hl (h l (List.mem_cons_self ..)), hl,
    yields_begun fun m hm => h m (List.mem_cons_of_mem _ hm)]

end

/-- A character that no line has comes into no statement, if it is not the one that lines are joined
with. -/
theorem not_mem_of_mem_statements {c : Char} (hc : c ≠ joinSign) (options : Options)
    {ls : List Text} (hlines : ∀ l ∈ Text.trimmedLines ls, c ∉ l) :
    ∀ s ∈ statements options ls, c ∉ s := by
  intro s hs
  have hjoin : ∀ p, ∀ l ∈ Text.trimmedLines ls, c ∉ p → c ∉ p ++ joinSign :: continuationBody l := by
    intro p l hl hp hm
    rcases List.mem_append.mp hm with hm | hm
    · exact hp hm
    rcases List.mem_cons.mp hm with hm | hm
    · exact hc hm
    · exact hlines l hl ((continuationBody_suffix l).subset hm)
  cases hl : Text.trimmedLines ls with
  | nil =>
    rw [statements_blank hl] at hs
    split at hs
    · rw [List.mem_singleton.mp hs]
      exact List.not_mem_nil
    · cases hs
  | cons l rest =>
    rw [hl] at hlines hjoin
    by_cases hb : continuesStatement l = true
    · rw [statements_continuation hl hb] at hs
      exact forall_mem_yields (fun m hm _ => hlines m hm) hjoin List.not_mem_nil (by simp) s hs
    · rw [statements_start hl (by simpa using hb)] at hs
      exact forall_mem_yields (fun m hm _ => hlines m (List.mem_cons_of_mem _ hm))
        (fun p m hm => hjoin p m (List.mem_cons_of_mem _ hm)) (hlines l (List.mem_cons_self ..))
        (by simp) s hs

/-- The statements of a text hold no newline, whatever was joined to them. -/
theorem newline_not_mem_statementsOfText (options : Options) (t : Text) :
    ∀ s ∈ statementsOfText options t, '\n' ∉ s :=
  not_mem_of_mem_statements (by decide) options fun _ => Text.not_mem_of_mem_trimmedLines

end SpiceDeck
