import SpiceDeck.Proofs.Statement.Run

/-!
# Counts of a run

What the counters of an assembly say in terms of its lines (`counts_assemble`): the lines taken, the
continuations among them, the statements given and the comments that had to wait.
-/

namespace SpiceDeck

/-- How many comments have to wait from here on. -/
def waits (policy : CommentPolicy) : Bool → List Text → Nat
  | _, [] => 0
  | continuing, l :: ls =>
    if continuesStatement l then waits policy true ls
    else if continuing && policy == .hold && isCommentLine l then waits policy true ls + 1
    else waits policy false ls

/-- Where nothing is continued, nothing waits. -/
theorem waits_begun {policy : CommentPolicy} {ls : List Text}
    (h : ∀ l ∈ ls, continuesStatement l = false) : waits policy false ls = 0 := by
  induction ls with
  | nil => rfl
  | cons l ls ih =>
    rw [waits, if_neg (by simp [h l (List.mem_cons_self ..)]), if_neg (by simp)]
    exact ih fun m hm => h m (List.mem_cons_of_mem _ hm)

namespace Assembly

/-- Nothing was taken out yet, so all the statements given are still there. -/
def Full (a : Assembly) : Prop := a.counts.logical = a.ready.length

section
variable {a : Assembly}

theorem Full.queue (h : a.Full) (ss : List Text) : (a.queue ss).Full := by
  unfold Full at h ⊢
  simp [Assembly.queue, h]

theorem Full.begin (h : a.Full) (l : Text) : (a.begin l).Full :=
  Full.queue (a := { a with pending := none, held := [] }) h _

theorem Full.take (h : a.Full) (l : Text) : (a.take l).Full := by
  by_cases hc : continuesStatement l = true
  · rw [take_continuation hc]
    exact h
  by_cases hh : (a.continuing && a.options.comments == .hold && isCommentLine l) = true
  · rw [take_held hc hh]
    exact h
  · rw [take_start hc hh]
    exact Full.begin (a := a.countLine) h l

theorem Full.push (h : a.Full) (l : Text) : (a.push l).Full := by
  unfold Assembly.push
  dsimp only
  split
  · exact h
  · exact h.take _

theorem Full.pushAll (h : a.Full) (ls : List Text) : (a.pushAll ls).Full := by
  induction ls generalizing a with
  | nil => exact h
  | cons l ls ih => exact ih (h.push l)

theorem counts_finish (hf : a.finished = false) (h : a.Full) :
    a.finish.counts = { a.counts with logical := a.finish.ready.length } := by
  have hq : ∀ ss, a.counts.logical + ss.length = (a.ready ++ ss).length := fun ss => by
    rw [show a.counts.logical = a.ready.length from h, List.length_append]
  unfold finish
  rw [if_neg (by simp [hf])]
  dsimp only
  split
  · exact congrArg (fun n => { a.counts with logical := n }) (hq [[]])
  · exact congrArg (fun n => { a.counts with logical := n }) (hq (a.pending.toList ++ a.held))

theorem counts_pushAll {ls : List Text} (hl : ∀ l ∈ ls, Text.IsTrimmed l) :
    ∀ {a : Assembly}, a.finished = false → a.Full →
      (a.pushAll ls).finish.counts =
        { physical := a.counts.physical + ls.length
          continuation := a.counts.continuation + ls.countP continuesStatement
          logical := (a.pushAll ls).finish.ready.length
          held := a.counts.held + waits a.options.comments a.continuing ls } := by
  induction ls with
  | nil => exact fun hf h => counts_finish hf h
  | cons l ls ih =>
    intro a hf h
    have ih := @ih fun m hm => hl m (List.mem_cons_of_mem _ hm)
    rw [pushAll_cons, push_eq_take hf (hl l (List.mem_cons_self ..)), waits, List.length_cons]
    by_cases hc : continuesStatement l = true
    · rw [take_continuation hc, ih (a := a.countLine.join l) hf h, if_pos hc,
        List.countP_cons_of_pos hc]
      simp [countLine, join, Nat.add_assoc, Nat.add_comm 1]
    by_cases hh : (a.continuing && a.options.comments == .hold && isCommentLine l) = true
    · have hcont : a.continuing = true := by
        simp only [Bool.and_eq_true] at hh
        exact hh.1.1
      rw [take_held hc hh, ih (a := a.countLine.holdComment l) hf h, if_neg hc, if_pos hh,
        List.countP_cons_of_neg hc]
      simp [countLine, holdComment, hcont, Nat.add_assoc, Nat.add_comm 1]
    · rw [take_start hc hh, ih (a := a.countLine.begin l) hf (Full.begin (a := a.countLine) h l),
        if_neg hc, if_neg hh, List.countP_cons_of_neg hc]
      simp [countLine, begin, release, queue, Nat.add_assoc, Nat.add_comm 1]

end

end Assembly

/-- **What is counted.** -/
theorem counts_assemble (options : Options) (ls : List Text) :
    (assemble options ls).2 =
      { physical := (Text.trimmedLines ls).length
        continuation := (Text.trimmedLines ls).countP continuesStatement
        logical := (statements options ls).length
        held := waits options.comments false (Text.trimmedLines ls) } := by
  have hl : ∀ l ∈ Text.trimmedLines ls, Text.IsTrimmed l := fun _ =>
    Text.isTrimmed_of_mem_trimmedLines
  have h := Assembly.counts_pushAll hl (a := .start options) rfl rfl
  rw [statements, Assembly.assemble_eq, ← Assembly.pushAll_trimmedLines, h]
  simp [Assembly.start]

end SpiceDeck
