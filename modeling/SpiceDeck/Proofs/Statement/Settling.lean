import Mathlib.Data.List.SplitBy
import SpiceDeck.Proofs.Statement.Counting
import SpiceDeck.Proofs.Statement.Interruptions

/-!
# Held comments as an order of lines

Holding comments back is the same as putting the lines in another order first. `settled` moves, in
each run of continuations and comments, the continuations in front of the comments that come after the
first of them; `split` reads from that just what `hold` reads from the lines as they stand
(`hold_assembles_as_split`).
-/

namespace SpiceDeck

open Text

/-- The lines cut into the longest runs of continuations and comments. Any other line is by itself. -/
def runs (ls : List Text) : List (List Text) :=
  ls.splitBy fun k l => !beginsPlain k && !beginsPlain l

/-- A run from its first continuation on. -/
def fromContinuation (run : List Text) : List Text := run.dropWhile (!continuesStatement ·)

/-- From the first continuation on, the continuations in front of the comments. -/
def settleRun (run : List Text) : List Text :=
  run.takeWhile (!continuesStatement ·) ++
    ((fromContinuation run).filter continuesStatement ++ (fromContinuation run).filter isLoneComment)

def settled (ls : List Text) : List Text := (runs ls).flatMap settleRun

/-- How many comments come after the first continuation of their run. -/
def overtaken (ls : List Text) : Nat := ((runs ls).flatMap fromContinuation).countP isLoneComment

/-! ## Line by line -/

/-- The order in which lines leave if the comments wait as under `hold`. -/
def leaving : Bool → List Text → List Text → List Text
  | _, held, [] => held
  | continuing, held, l :: ls =>
    if continuesStatement l then l :: leaving true held ls
    else if continuing && isCommentLine l then leaving true (held ++ [l]) ls
    else held ++ l :: leaving false [] ls

section
variable {continuing : Bool} {held ls : List Text} {l : Text}

theorem leaving_continuation (hk : continuesStatement l = true) :
    leaving continuing held (l :: ls) = l :: leaving true held ls := by
  rw [leaving, if_pos hk]

theorem leaving_held (hl : isLoneComment l = true) :
    leaving true held (l :: ls) = leaving true (held ++ [l]) ls := by
  obtain ⟨hc, hk⟩ := isLoneComment_iff.mp hl
  rw [leaving, if_neg (by simp [hk]), if_pos (by simp [hc])]

theorem leaving_start (hk : continuesStatement l = false)
    (h : (continuing && isCommentLine l) = false) :
    leaving continuing held (l :: ls) = held ++ l :: leaving false [] ls := by
  rw [leaving, if_neg (by simp [hk]), if_neg (by simp [h])]

theorem leaving_perm (continuing : Bool) (held ls : List Text) :
    (leaving continuing held ls).Perm (held ++ ls) := by
  induction ls generalizing continuing held with
  | nil => rw [leaving, List.append_nil]
  | cons l ls ih =>
    rw [leaving]
    split
    · exact ((ih true held).cons l).trans List.perm_middle.symm
    split
    · simpa using ih true (held ++ [l])
    · exact ((ih false []).cons l).append_left held

/-- Under `split`, lines that continue nothing are statements of their own. -/
theorem yields_starts {hs : List Text} (hh : ∀ h ∈ hs, continuesStatement h = false) :
    ∀ {p : Text} {continuing : Bool},
      yields .split p continuing [] hs = p :: hs ∧
        ∀ l ls, continuesStatement l = false →
          yields .split p continuing [] (hs ++ l :: ls) = p :: (hs ++ yields .split l false [] ls) := by
  induction hs with
  | nil =>
    intro p continuing
    exact ⟨rfl, fun l ls hl => yields_start hl (by simp) ls⟩
  | cons h hs ih =>
    intro p continuing
    obtain ⟨h₁, h₂⟩ := @ih (fun m hm => hh m (List.mem_cons_of_mem _ hm)) h false
    have hstart := hh h (List.mem_cons_self ..)
    refine ⟨?_, fun l ls hl => ?_⟩
    · rw [yields_start hstart (by simp), h₁, List.nil_append]
    · rw [List.cons_append, yields_start hstart (by simp), h₂ l ls hl]
      rfl

end

/-- **One line at a time.** The comments that wait under `hold` are lines that `split` has still to
read. -/
theorem yields_hold_eq_split {ls : List Text} :
    ∀ {p : Text} {continuing : Bool} {held : List Text},
      (∀ h ∈ held, continuesStatement h = false) →
      yields .hold p continuing held ls =
        yields .split p continuing [] (leaving continuing held ls) := by
  induction ls with
  | nil =>
    intro p continuing held hh
    rw [leaving, (yields_starts hh).1]
    rfl
  | cons l ls ih =>
    intro p continuing held hh
    rw [yields, leaving]
    by_cases hk : continuesStatement l = true
    · rw [if_pos hk, if_pos hk, yields_continuation hk, ih hh]
    rw [if_neg hk, if_neg hk]
    rw [Bool.not_eq_true] at hk
    by_cases hw : (continuing && isCommentLine l) = true
    · -- the comment joins those that wait
      have hcont : continuing = true := by
        rw [Bool.and_eq_true] at hw
        exact hw.1
      subst hcont
      have hh' : ∀ h ∈ held ++ [l], continuesStatement h = false := by
        intro h hm
        rcases List.mem_append.mp hm with hm | hm
        · exact hh h hm
        · rw [List.mem_singleton.mp hm, hk]
      rw [if_pos (by simpa using hw), if_pos hw, ih hh']
    · rw [if_neg (by simpa using hw), if_neg hw, (yields_starts hh).2 l _ hk, ih (by simp)]

/-! ## Run by run -/

section
variable {run rest : List Text}

theorem runs_plain {s : Text} (hs : beginsPlain s = true) (ls : List Text) :
    runs (s :: ls) = [s] :: runs ls := by
  have := List.splitBy_append (l := [s]) (m := ls) (r := fun k l => !beginsPlain k && !beginsPlain l)
    (by simp [hs])
  exact this

theorem runs_append (hne : run ≠ []) (hrun : ∀ l ∈ run, beginsPlain l = false)
    (hrest : ∀ l ∈ rest.head?, beginsPlain l = true) :
    runs (run ++ rest) = run :: runs rest := by
  have hchain : run.splitBy (fun k l => !beginsPlain k && !beginsPlain l) = [run] := by
    refine List.splitBy_of_isChain hne (List.Pairwise.isChain ?_)
    exact List.pairwise_of_forall_mem_list fun k hk l hl => by simp [hrun k hk, hrun l hl]
  rw [runs, List.splitBy_append fun k _ l hl => by simp [hrest l hl], hchain]
  rfl

/-- Behind a continuation of its run, a line goes ahead or waits. -/
theorem leaving_run (hrun : ∀ l ∈ run, beginsPlain l = false) (rest : List Text) :
    ∀ held,
      leaving true held (run ++ rest) =
          run.filter continuesStatement ++ leaving true (held ++ run.filter isLoneComment) rest ∧
        waits .hold true (run ++ rest) = run.countP isLoneComment + waits .hold true rest := by
  induction run with
  | nil => simp
  | cons l run ih =>
    intro held
    have ih := ih fun m hm => hrun m (List.mem_cons_of_mem _ hm)
    rcases line_cases l with hk | hl | hp
    · have hl : isLoneComment l = false := by simp [isLoneComment, hk]
      obtain ⟨h₁, h₂⟩ := ih held
      rw [List.cons_append, leaving_continuation hk, h₁, waits, if_pos hk, h₂]
      simp [hk, hl]
    · obtain ⟨hc, hk⟩ := isLoneComment_iff.mp hl
      obtain ⟨h₁, h₂⟩ := ih (held ++ [l])
      rw [List.cons_append, leaving_held hl, h₁, waits, if_neg (by simp [hk]), if_pos (by simp [hc]),
        h₂]
      simp [hk, hl]
      omega
    · have := hrun l (List.mem_cons_self ..)
      rw [hp] at this
      cases this

/-- In front of the first continuation of a run nothing waits. -/
theorem leaving_before (hb : ∀ l ∈ run, continuesStatement l = false) (rest : List Text) :
    leaving false [] (run ++ rest) = run ++ leaving false [] rest ∧
      waits .hold false (run ++ rest) = waits .hold false rest := by
  induction run with
  | nil => exact ⟨rfl, rfl⟩
  | cons l run ih =>
    obtain ⟨h₁, h₂⟩ := ih fun m hm => hb m (List.mem_cons_of_mem _ hm)
    have hk := hb l (List.mem_cons_self ..)
    rw [List.cons_append, leaving_start hk rfl, h₁, waits, if_neg (by simp [hk]), if_neg (by simp), h₂]
    exact ⟨rfl, rfl⟩

/-- The end of a run lets the comments go that wait. -/
theorem leaving_end (hrest : ∀ l ∈ rest.head?, beginsPlain l = true) (held : List Text) :
    leaving true held rest = held ++ leaving false [] rest ∧
      waits .hold true rest = waits .hold false rest := by
  cases rest with
  | nil => simp [leaving, waits]
  | cons s rest =>
    obtain ⟨hc, hk⟩ := beginsPlain_iff.mp (hrest s rfl)
    rw [leaving_start hk (by simp [hc]), leaving_start hk rfl, waits, waits]
    simp [hk, hc]

theorem leaving_settleRun (hrun : ∀ l ∈ run, beginsPlain l = false)
    (hrest : ∀ l ∈ rest.head?, beginsPlain l = true) :
    leaving false [] (run ++ rest) = settleRun run ++ leaving false [] rest ∧
      waits .hold false (run ++ rest) =
        (fromContinuation run).countP isLoneComment + waits .hold false rest := by
  have hcut : run = run.takeWhile (!continuesStatement ·) ++ fromContinuation run :=
    List.takeWhile_append_dropWhile.symm
  have hb : ∀ l ∈ run.takeWhile (!continuesStatement ·), continuesStatement l = false := by
    have := List.all_takeWhile (p := (!continuesStatement ·)) (l := run)
    simpa only [List.all_eq_true, Bool.not_eq_true'] using this
  have hfrom : ∀ l ∈ fromContinuation run, beginsPlain l = false := fun l hl =>
    hrun l (List.dropWhile_subset _ hl)
  have hfirst := head?_dropWhile (p := (!continuesStatement ·)) (t := run)
  obtain ⟨h₁, h₂⟩ := leaving_before hb (fromContinuation run ++ rest)
  rw [← List.append_assoc, ← hcut] at h₁ h₂
  rw [h₁, h₂, settleRun, List.append_assoc, List.append_cancel_left_eq]
  cases hf : fromContinuation run with
  | nil => simp
  | cons k more =>
    have hk : continuesStatement k = true := by
      have := hfirst k (by rw [← fromContinuation, hf]; rfl)
      simpa using this
    have hl : isLoneComment k = false := by simp [isLoneComment, hk]
    rw [hf] at hfrom
    have hmore : ∀ m ∈ more, beginsPlain m = false := fun m hm =>
      hfrom m (List.mem_cons_of_mem _ hm)
    obtain ⟨h₃, h₄⟩ := leaving_run hmore rest []
    obtain ⟨h₅, h₆⟩ := leaving_end hrest ([] ++ more.filter isLoneComment)
    rw [List.cons_append, leaving_continuation hk, h₃, h₅, waits, if_pos hk, h₄, h₆]
    simp [hk, hl]

theorem settled_plain {s : Text} (hs : beginsPlain s = true) (ls : List Text) :
    settled (s :: ls) = s :: settled ls ∧ overtaken (s :: ls) = overtaken ls := by
  obtain ⟨-, hk⟩ := beginsPlain_iff.mp hs
  rw [settled, overtaken, runs_plain hs]
  simp [settled, overtaken, settleRun, fromContinuation, hk]

theorem settled_run (hne : run ≠ []) (hrun : ∀ l ∈ run, beginsPlain l = false)
    (hrest : ∀ l ∈ rest.head?, beginsPlain l = true) :
    settled (run ++ rest) = settleRun run ++ settled rest ∧
      overtaken (run ++ rest) = (fromContinuation run).countP isLoneComment + overtaken rest := by
  rw [settled, overtaken, runs_append hne hrun hrest]
  simp [settled, overtaken]

/-- **The order in which lines leave**, run by run. -/
theorem leaving_eq_settled (ls : List Text) :
    leaving false [] ls = settled ls ∧ waits .hold false ls = overtaken ls := by
  induction hn : ls.length using Nat.strongRecOn generalizing ls with
  | ind n ih =>
    cases ls with
    | nil => exact ⟨rfl, rfl⟩
    | cons l ls =>
      by_cases hl : beginsPlain l = true
      · obtain ⟨-, hk⟩ := beginsPlain_iff.mp hl
        obtain ⟨h₁, h₂⟩ := ih ls.length (by rw [← hn, List.length_cons]; omega) ls rfl
        obtain ⟨h₃, h₄⟩ := settled_plain hl ls
        rw [leaving_start hk rfl, waits, if_neg (by simp [hk]), if_neg (by simp), h₁, h₂, h₃, h₄]
        exact ⟨rfl, rfl⟩
      · obtain ⟨run, rest, hcut, hrun, hrest⟩ := exists_span (!beginsPlain ·) (l :: ls)
        have hrun : ∀ l ∈ run, beginsPlain l = false := by simpa using hrun
        have hrest : ∀ l ∈ rest.head?, beginsPlain l = true := by simpa using hrest
        have hne : run ≠ [] := by
          rintro rfl
          rw [List.nil_append] at hcut
          rw [← hcut] at hrest
          exact hl (hrest l rfl)
        have hlen : rest.length < n := by
          have := List.length_pos_iff.mpr hne
          rw [← hn, hcut, List.length_append]
          omega
        obtain ⟨h₁, h₂⟩ := ih rest.length hlen rest rfl
        obtain ⟨h₃, h₄⟩ := leaving_settleRun hrun hrest
        obtain ⟨h₅, h₆⟩ := settled_run hne hrun hrest
        rw [hcut, h₃, h₄, h₅, h₆, h₁, h₂]
        exact ⟨rfl, rfl⟩

end

/-! ## Whole decks -/

theorem settled_perm (ls : List Text) : (settled ls).Perm ls := by
  rw [← (leaving_eq_settled ls).1]
  exact leaving_perm false [] ls

theorem trimmedLines_settled (ls : List Text) :
    trimmedLines (settled (trimmedLines ls)) = settled (trimmedLines ls) :=
  trimmedLines_eq_self fun _ hl =>
    isTrimmed_of_mem_trimmedLines ((settled_perm (trimmedLines ls)).mem_iff.mp hl)

theorem statements_hold (emptyDeck : EmptyDeck) (ls : List Text) :
    statements ⟨.hold, emptyDeck⟩ ls =
      statements ⟨.split, emptyDeck⟩ (settled (trimmedLines ls)) := by
  have hset := trimmedLines_settled ls
  cases h : trimmedLines ls with
  | nil =>
    rw [h] at hset
    rw [statements_blank h, statements_blank hset]
  | cons l rest =>
    rw [h, ← (leaving_eq_settled (l :: rest)).1] at hset
    rw [← (leaving_eq_settled (l :: rest)).1]
    by_cases hk : continuesStatement l = true
    · have hfirst : leaving false [] (l :: rest) = l :: leaving true [] rest :=
        leaving_continuation hk
      rw [statements_continuation h hk, statements_continuation (hset.trans hfirst) hk, ← hfirst]
      exact yields_hold_eq_split (by simp)
    · rw [Bool.not_eq_true] at hk
      have hfirst : leaving false [] (l :: rest) = l :: leaving false [] rest :=
        leaving_start hk rfl
      rw [statements_start h hk, statements_start (hset.trans hfirst) hk]
      exact yields_hold_eq_split (by simp)

/-- **Holding is ordering.** Under `hold` the lines give the statements and the counts that the settled
lines give under `split`, but for the comments that had to wait: those that come after the first
continuation of their run. -/
theorem hold_assembles_as_split (emptyDeck : EmptyDeck) (ls : List Text) :
    assemble ⟨.hold, emptyDeck⟩ ls =
      ((assemble ⟨.split, emptyDeck⟩ (settled (trimmedLines ls))).1,
        { (assemble ⟨.split, emptyDeck⟩ (settled (trimmedLines ls))).2 with
          held := overtaken (trimmedLines ls) }) := by
  have hp := settled_perm (trimmedLines ls)
  refine Prod.ext (statements_hold emptyDeck ls) ?_
  rw [counts_assemble, counts_assemble, trimmedLines_settled, hp.length_eq, hp.countP_eq,
    statements_hold, (leaving_eq_settled _).2]

example :
    settled ["R1".toList, "* a".toList, "+ 1".toList, "* b".toList, "+ 2".toList, "R2".toList] =
      ["R1".toList, "* a".toList, "+ 1".toList, "+ 2".toList, "* b".toList, "R2".toList] := by
  decide

end SpiceDeck
