import Mathlib.Order.Bounds.Basic
import SpiceDeck.Proofs.Statement.Counting
import SpiceDeck.Proofs.Statement.Iteration

/-!
# How far the calls read

A call takes lines only while nothing is ready. So with the first `k` statements a view has taken the
least number of lines that releases as many of them, or all the lines if none does, and after the last
statement it takes nothing more (`calls_frugal`).
-/

namespace SpiceDeck

namespace Statements

open Assembly

/-- A new assembly that was given the first `n` lines. -/
def fed (options : Options) (ls : List Text) (n : Nat) : Assembly :=
  (start options).pushAll (ls.take n)

/-- The numbers of lines that release at least `k` statements. -/
def enoughFor (options : Options) (ls : List Text) (k : Nat) : Set Nat :=
  {n | k ≤ (fed options ls n).counts.logical}

theorem logical_fed (options : Options) (ls : List Text) (n : Nat) :
    (fed options ls n).counts.logical = (fed options ls n).ready.length :=
  Full.pushAll (a := start options) rfl (ls.take n)

theorem finished_fed (options : Options) (ls : List Text) (n : Nat) :
    (fed options ls n).finished = false :=
  finished_pushAll (start options) (ls.take n)

section
variable {options : Options} {ls : List Text}

theorem fed_succ {n : Nat} {l : Text} {rest : List Text} (h : ls.drop n = l :: rest) :
    fed options ls (n + 1) = (fed options ls n).push l := by
  unfold fed
  rw [List.take_add, h, pushAll_append]
  rfl

theorem fed_of_end {n m : Nat} (h : ls.drop n = []) (hm : n ≤ m) :
    fed options ls m = fed options ls n := by
  have hn : ls.length ≤ n := List.drop_eq_nil_iff.mp h
  unfold fed
  rw [List.take_of_length_le hn, List.take_of_length_le (Nat.le_trans hn hm)]

/-! ## One call -/

/-- The view has taken `n` lines and given `k` statements; with what is ready they are all that the lines
release. -/
structure Reached (options : Options) (ls : List Text) (n k : Nat) (s : Statements) : Prop where
  lines : ls.drop n = s.lines
  within : n ≤ ls.length
  assembly : ∃ given, given.length = k ∧ s.assembly.after given = fed options ls n

/-- How a view stands that was asked `k` times: no fewer lines release as many statements, and if no
lines do, it has come to the end. -/
inductive Stands (options : Options) (ls : List Text) (k : Nat) (s : Statements) : Prop
  | reading (n : Nat) (reached : Reached options ls n k s)
      (short : ∀ m < n, (fed options ls m).counts.logical < k)
  | ended (lines : s.lines = []) (finished : s.assembly.finished = true)
      (short : ∀ m, (fed options ls m).counts.logical < k)

section
variable {n k : Nat} {a : Assembly} {rest : List Text}

theorem Reached.finished (h : Reached options ls n k ⟨a, rest⟩) : a.finished = false := by
  obtain ⟨given, -, ha⟩ := h.assembly
  have hf := finished_fed options ls n
  rwa [← ha] at hf

theorem Reached.counts {s : Statements} (h : Reached options ls n k s) :
    s.counts = (fed options ls n).counts := by
  obtain ⟨given, -, ha⟩ := h.assembly
  rw [← ha]
  rfl

theorem Reached.logical {s : Statements} (h : Reached options ls n k s) :
    (fed options ls n).counts.logical = k + s.assembly.ready.length := by
  obtain ⟨given, rfl, ha⟩ := h.assembly
  rw [logical_fed, ← ha]
  simp [after]

theorem Reached.le_logical {s : Statements} (h : Reached options ls n k s) :
    k ≤ (fed options ls n).counts.logical := by
  rw [h.logical]
  exact Nat.le_add_right k _

theorem Reached.pop {x : Text} {r : List Text} (h : Reached options ls n k ⟨a, rest⟩)
    (hr : a.ready = x :: r) : Reached options ls n (k + 1) ⟨a.pop.2, rest⟩ := by
  obtain ⟨given, rfl, ha⟩ := h.assembly
  obtain ⟨b, rfl, hp⟩ := pop_of_ready hr
  rw [after_after] at ha
  rw [hp]
  exact ⟨h.lines, h.within, given ++ [x], by simp, ha⟩

theorem Reached.push {l : Text} (h : Reached options ls n k ⟨a, l :: rest⟩) :
    Reached options ls (n + 1) k ⟨a.push l, rest⟩ := by
  obtain ⟨given, hg, ha⟩ := h.assembly
  have hl : ls.drop n = l :: rest := h.lines
  have hlen := congrArg List.length hl
  simp only [List.length_drop, List.length_cons] at hlen
  refine ⟨?_, by omega, given, hg, ?_⟩
  · rw [← List.drop_drop, hl]
    rfl
  · have hp : (a.after given).push l = (a.push l).after given := push_after given a l
    rw [fed_succ hl, ← ha]
    exact hp.symm

/-- A call that finds nothing ready takes the next line, with which `k` statements are still the most
that fewer lines release. -/
theorem stands_pull :
    ∀ {n : Nat} {a : Assembly}, Reached options ls n k ⟨a, rest⟩ →
      (∀ m < n, (fed options ls m).counts.logical ≤ k) →
      Stands options ls (k + 1) (pull a rest).2 := by
  induction rest with
  | nil =>
    intro n a h hs
    cases hr : a.ready with
    | cons x r =>
      rw [pull_of_ready hr]
      exact .reading n (h.pop hr) fun m hm => Nat.lt_succ_of_le (hs m hm)
    | nil =>
      have hp : pull a [] = (a.finish.pop.1, ⟨a.finish.pop.2, []⟩) := by simp [pull, hr]
      rw [hp]
      apply Stands.ended rfl
      · rw [finished_pop, finished_finish]
      · intro m
        apply Nat.lt_succ_of_le
        by_cases hm : m < n
        · exact hs m hm
        · rw [fed_of_end h.lines (Nat.le_of_not_lt hm), h.logical]
          simp [hr]
  | cons l rest ih =>
    intro n a h hs
    cases hr : a.ready with
    | cons x r =>
      rw [pull_of_ready hr]
      exact .reading n (h.pop hr) fun m hm => Nat.lt_succ_of_le (hs m hm)
    | nil =>
      rw [pull_line hr (by simp [h.finished])]
      apply ih h.push
      intro m hm
      by_cases hn : m = n
      · rw [hn, h.logical]
        simp [hr]
      · exact hs m (by omega)

end

/-! ## After the last statement -/

/-- It gives nothing any more and takes nothing, even if its source went on. -/
def Spent (s : Statements) : Prop :=
  ∀ more, (Statements.mk s.assembly more).next = (none, ⟨s.assembly, more⟩)

theorem spent_of_finished {s : Statements} (hf : s.assembly.finished = true)
    (hr : s.assembly.ready = []) : s.Spent := by
  intro more
  unfold Statements.next
  cases more with
  | nil => simp [pull, hr, finish_of_finished hf, pop_of_empty hr]
  | cons l more => simp [pull, pop_of_empty hr, hf]

theorem spent_next {s : Statements} (h : s.next.1 = none) : s.next.2.Spent := by
  have ht := takes_next s
  have hf : s.next.2.assembly.finished = true := ht.ended h
  have hr : s.next.2.assembly.ready = [] := by
    have hs := ht.statement
    rw [h, fst_pop] at hs
    rw [← outcome_of_finished hf, ht.rest, ready_pop, List.head?_eq_none_iff.mp hs.symm]
    rfl
  exact spent_of_finished hf hr

theorem Spent.skip {s : Statements} (h : s.Spent) (k : Nat) : s.skip k = s := by
  have hn : s.next.2 = s := congrArg Prod.snd (h s.lines)
  induction k with
  | zero => rfl
  | succ k ih => rw [skip_succ, ih, hn]

/-! ## Call after call -/

theorem Stands.next {k : Nat} {s : Statements} (h : Stands options ls k s) :
    Stands options ls (k + 1) s.next.2 := by
  cases h with
  | reading n h hs => exact stands_pull h fun m hm => Nat.le_of_lt (hs m hm)
  | ended hl hf hs =>
    have hp : s.next.2 = ⟨s.assembly.pop.2, []⟩ := by
      unfold Statements.next
      rw [hl]
      simp [pull, finish_of_finished hf]
    rw [hp]
    exact .ended rfl (by rw [finished_pop, hf]) fun m => Nat.lt_succ_of_lt (hs m)

theorem stands_skip (options : Options) (ls : List Text) (k : Nat) :
    Stands options ls k ((ofLines options ls).skip k) := by
  induction k with
  | zero =>
    refine .reading 0 ⟨rfl, Nat.zero_le _, [], rfl, rfl⟩ fun m hm => ?_
    cases hm
  | succ k ih =>
    rw [skip_succ]
    exact ih.next

theorem Stands.reached {n k : Nat} {s : Statements} (h : Stands options ls k s)
    (hn : IsLeast (enoughFor options ls k) n) : Reached options ls n k s := by
  cases h with
  | reading m h hs =>
    have hm : IsLeast (enoughFor options ls k) m := by
      refine ⟨h.le_logical, ?_⟩
      intro j hj
      by_contra hlt
      exact absurd (hs j (Nat.lt_of_not_le hlt)) (Nat.not_lt_of_le hj)
    rw [hn.unique hm]
    exact h
  | ended hl hf hs => exact absurd (hs n) (Nat.not_lt_of_le hn.1)

theorem Stands.at_end {k : Nat} {s : Statements} (h : Stands options ls k s)
    (he : enoughFor options ls k = ∅) : s.lines = [] ∧ s.assembly.finished = true := by
  cases h with
  | reading m h hs =>
    have hm : m ∈ enoughFor options ls k := h.le_logical
    rw [he] at hm
    cases hm
  | ended hl hf hs => exact ⟨hl, hf⟩

/-- What the call after `k` others does with a view of the lines. -/
structure Frugal (options : Options) (ls : List Text) (k : Nat) (s : Statements) : Prop where
  least : ∀ n, IsLeast (enoughFor options ls (k + 1)) n →
    s.next.1.isSome ∧ n ≤ ls.length ∧ s.next.2.lines = ls.drop n ∧
      s.next.2.counts = (fed options ls n).counts
  ended : enoughFor options ls (k + 1) = ∅ →
    s.next.2.lines = [] ∧ s.next.2.assembly.finished = true
  fused : s.next.1 = none → s.next.2.Spent ∧ ∀ j, s.next.2.skip j = s.next.2
  statement : s.next.1 = ((start options).pushAll ls).finish.drain.1[k]?

end

/-- **Calls are lazy.** If some number of lines releases more than `k` statements, the call after `k`
others gives a statement and leaves the view behind the least such number of lines, with the counts that
they have. If none does, all lines are taken and the deck is ended. After a call that gives none nothing
is given or taken any more. The statements are those of all the lines at once. -/
theorem calls_frugal (options : Options) (ls : List Text) (k : Nat) :
    Frugal options ls k ((ofLines options ls).skip k) := by
  have hst := stands_skip options ls (k + 1)
  rw [skip_succ] at hst
  refine ⟨fun n hn => ?_, hst.at_end, fun h => ?_, next_skip (ofLines options ls) k⟩
  · have hr := hst.reached hn
    refine ⟨?_, hr.within, hr.lines.symm, hr.counts⟩
    -- a call that gives none has ended the deck
    rw [Option.isSome_iff_ne_none]
    intro hx
    have hf := (takes_next _).ended hx
    rw [hr.finished] at hf
    cases hf
  · have hs := spent_next h
    exact ⟨hs, hs.skip⟩

/-- The line behind the comment releases the statement and the comment, so the second call takes none. -/
example :
    let s := ofLines ⟨.hold, .nothing⟩ ["R1".toList, "+a".toList, "* c".toList, "R2".toList, "R3".toList]
    (s.skip 1).lines = ["R3".toList] ∧ (s.skip 2).lines = ["R3".toList] ∧ (s.skip 3).lines = [] := by
  decide

end Statements

end SpiceDeck
