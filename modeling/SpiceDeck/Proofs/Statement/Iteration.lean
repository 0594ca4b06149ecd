import SpiceDeck.Proofs.Statement.Run

/-!
# Statements call by call

A call takes the next statement out of the `outcome`: what the assembly has ready once it has all the
lines that are left. So the calls give the statements of the lines in their order and then none for
ever, however few lines each of them takes (`gives_assemble`).
-/

namespace SpiceDeck

namespace Assembly

section
variable {a : Assembly}

theorem pop_of_ready {x : Text} {r : List Text} (h : a.ready = x :: r) :
    ∃ b : Assembly, a = b.after [x] ∧ a.pop = (some x, b) := by
  refine ⟨{ a with ready := r }, ?_, ?_⟩
  · simp only [after, List.singleton_append, ← h]
  · simp only [pop, h]

theorem pop_of_empty (h : a.ready = []) : a.pop = (none, a) := by
  simp only [pop, h]

theorem fst_pop (a : Assembly) : a.pop.1 = a.ready.head? := by
  cases h : a.ready <;> simp [pop, h]

theorem ready_pop (a : Assembly) : a.pop.2.ready = a.ready.tail := by
  cases h : a.ready <;> simp [pop, h]

theorem counts_pop (a : Assembly) : a.pop.2.counts = a.counts := by
  cases h : a.ready <;> simp [pop, h]

theorem finished_pop (a : Assembly) : a.pop.2.finished = a.finished := by
  cases h : a.ready <;> simp [pop, h]

theorem finished_push (a : Assembly) (l : Text) : (a.push l).finished = a.finished := by
  unfold push
  dsimp only
  split
  · rfl
  · unfold take
    dsimp only
    split
    · rfl
    split <;> rfl

theorem finished_pushAll (a : Assembly) (ls : List Text) : (a.pushAll ls).finished = a.finished := by
  induction ls generalizing a with
  | nil => rfl
  | cons l ls ih => rw [pushAll_cons, ih, finished_push]

/-! ## After the end -/

theorem finished_finish (a : Assembly) : a.finish.finished = true := by
  unfold finish
  by_cases h : a.finished = true
  · rw [if_pos h, h]
  · rw [if_neg h]
    dsimp only
    split <;> rfl

theorem finish_of_finished (h : a.finished = true) : a.finish = a := if_pos h

theorem push_of_finished (h : a.finished = true) (l : Text) : a.push l = a := by
  simp [push, h]

theorem pushAll_of_finished (h : a.finished = true) (ls : List Text) : a.pushAll ls = a := by
  induction ls with
  | nil => rfl
  | cons l ls ih => rw [pushAll_cons, push_of_finished h, ih]

end

end Assembly

namespace Statements

open Assembly

/-- The assembly as it ends, with all that has not been taken out. -/
def outcome (s : Statements) : Assembly := (s.assembly.pushAll s.lines).finish

theorem outcome_of_finished {s : Statements} (h : s.assembly.finished = true) :
    s.outcome = s.assembly := by
  rw [outcome, pushAll_of_finished h, finish_of_finished h]

theorem outcome_after (r : List Text) (a : Assembly) (ls : List Text) :
    outcome ⟨a.after r, ls⟩ = (outcome ⟨a, ls⟩).after r := by
  simp only [outcome, pushAll_after, finish_after]

/-! ## One call -/

/-- A call that gives `x` takes the first statement of the outcome out. If there is none, the deck has
ended. -/
structure Takes (s s' : Statements) (x : Option Text) : Prop where
  statement : x = s.outcome.pop.1
  rest : s'.outcome = s.outcome.pop.2
  ended : x = none → s'.assembly.finished = true

section
variable {a : Assembly} {x : Text} {r : List Text} (h : a.ready = x :: r) (ls : List Text)
include h

theorem pull_of_ready : pull a ls = (a.pop.1, ⟨a.pop.2, ls⟩) := by
  obtain ⟨b, -, hp⟩ := pop_of_ready h
  cases ls <;> simp [pull, h, hp]

theorem takes_of_ready : Takes ⟨a, ls⟩ (pull a ls).2 (pull a ls).1 := by
  obtain ⟨b, hb, hp⟩ := pop_of_ready h
  have ho : outcome ⟨a, ls⟩ = (outcome ⟨b, ls⟩).after [x] := by rw [← outcome_after, ← hb]
  rw [pull_of_ready h, hp]
  exact ⟨by rw [ho]; rfl, by rw [ho]; rfl, fun hx => by cases hx⟩

end

theorem pull_line {a : Assembly} (hr : a.ready = []) (hf : ¬ a.finished = true) (l : Text)
    (ls : List Text) : pull a (l :: ls) = pull (a.push l) ls := by
  rw [pull, pop_of_empty hr]
  exact if_neg hf

theorem takes_pull (a : Assembly) (ls : List Text) : Takes ⟨a, ls⟩ (pull a ls).2 (pull a ls).1 := by
  induction ls generalizing a with
  | nil =>
    cases hr : a.ready with
    | cons x r => exact takes_of_ready hr []
    | nil =>
      have hf : a.finish.pop.2.finished = true := by rw [finished_pop, finished_finish]
      have hp : pull a [] = (a.finish.pop.1, ⟨a.finish.pop.2, []⟩) := by simp [pull, hr]
      rw [hp]
      exact ⟨rfl, outcome_of_finished hf, fun _ => hf⟩
  | cons l ls ih =>
    cases hr : a.ready with
    | cons x r => exact takes_of_ready hr (l :: ls)
    | nil =>
      by_cases hf : a.finished = true
      · have ho : outcome ⟨a, l :: ls⟩ = a := outcome_of_finished hf
        rw [pull, pop_of_empty hr]
        dsimp only
        rw [if_pos hf]
        exact ⟨by rw [ho, pop_of_empty hr], by rw [ho, pop_of_empty hr], fun _ => hf⟩
      · -- the line is taken and the call goes on
        rw [pull_line hr hf]
        obtain ⟨hs, hr, he⟩ := ih (a.push l)
        exact ⟨hs, hr, he⟩

theorem takes_next (s : Statements) : Takes s s.next.2 s.next.1 := takes_pull s.assembly s.lines

/-! ## Call after call -/

/-- The view after a number of calls. -/
def skip (s : Statements) : Nat → Statements
  | 0 => s
  | k + 1 => s.next.2.skip k

theorem skip_succ (s : Statements) (k : Nat) : s.skip (k + 1) = (s.skip k).next.2 := by
  induction k generalizing s with
  | zero => rfl
  | succ k ih => exact ih s.next.2

theorem outcome_skip (s : Statements) (k : Nat) :
    (s.skip k).outcome.ready = s.outcome.ready.drop k ∧ (s.skip k).outcome.counts = s.outcome.counts := by
  induction k with
  | zero => exact ⟨rfl, rfl⟩
  | succ k ih =>
    rw [skip_succ, (takes_next _).rest, ready_pop, counts_pop, ih.1, ih.2, List.tail_drop]
    exact ⟨rfl, rfl⟩

theorem next_skip (s : Statements) (k : Nat) : (s.skip k).next.1 = s.outcome.ready[k]? := by
  rw [← List.head?_drop, ← (outcome_skip s k).1, ← fst_pop]
  exact (takes_next _).statement

/-- The calls give these statements one after another and then none for ever, and with the first none
the counts are these. -/
structure Gives (s : Statements) (ss : List Text) (counts : Counts) : Prop where
  statement : ∀ k, (s.skip k).next.1 = ss[k]?
  counts : ∀ k, ss.length < k → (s.skip k).counts = counts

theorem Gives.unique {s : Statements} {ss ss' : List Text} {c c' : Counts} (h : s.Gives ss c)
    (h' : s.Gives ss' c') : ss = ss' ∧ c = c' := by
  have hs : ss = ss' := List.ext_getElem? fun k => (h.statement k).symm.trans (h'.statement k)
  subst hs
  have hk : ss.length < ss.length + 1 := Nat.lt_succ_self ss.length
  exact ⟨rfl, (h.counts _ hk).symm.trans (h'.counts _ hk)⟩

theorem gives_outcome (s : Statements) : s.Gives s.outcome.ready s.outcome.counts := by
  refine ⟨next_skip s, fun k hk => ?_⟩
  obtain ⟨j, rfl⟩ : ∃ j, k = j + 1 := ⟨k - 1, by omega⟩
  have hn : (s.skip j).next.1 = none := by
    rw [next_skip, List.getElem?_eq_none (by omega)]
  have hf : (s.skip (j + 1)).assembly.finished = true := by
    rw [skip_succ]
    exact (takes_next _).ended hn
  rw [Statements.counts, ← outcome_of_finished hf, (outcome_skip s _).2]

/-- **Lazy and whole.** The calls give what assembling all the lines at once gives. -/
theorem gives_assemble (options : Options) (ls : List Text) :
    (ofLines options ls).Gives (assemble options ls).1 (assemble options ls).2 := by
  rw [assemble_eq]
  exact gives_outcome (ofLines options ls)

theorem Gives.eq_assemble {options : Options} {ls ss : List Text} {c : Counts}
    (h : (ofLines options ls).Gives ss c) : (ss, c) = assemble options ls := by
  obtain ⟨hs, hc⟩ := h.unique (gives_assemble options ls)
  exact Prod.ext hs hc

end Statements

end SpiceDeck
