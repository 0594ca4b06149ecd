import Mathlib.Data.List.SplitBy
import SpiceDeck.Proofs.Statement.Iteration

/-!
# Groups of lines

Under `split` a deck is cut in front of every line that continues nothing, and each group of lines is
one statement (`split_gives_groups`).
-/

namespace SpiceDeck

open Text

/-- The lines cut in front of every line that is no continuation. -/
def groups (ls : List Text) : List (List Text) := ls.splitBy fun _ l => continuesStatement l

/-- What a group says: its first line with the continuations put to it, or, if all of it is
continuations, the empty statement with them. Each of them comes without the run of signs at its head
(`continuationBody_eq_iff`). -/
def groupStatement : List Text → Text
  | [] => []
  | l :: ks => if continuesStatement l then joined [] (l :: ks) else joined l ks

/-- A statement for each group; without lines, what an empty deck stands for. -/
def groupedStatements (emptyDeck : EmptyDeck) (ls : List Text) : List Text :=
  if ls = [] ∧ emptyDeck = .emptyLine then [[]] else (groups ls).map groupStatement

/-! ## Cuts -/

section
variable {ks ls : List Text} (hk : ∀ k ∈ ks, continuesStatement k = true)
  (hl : ∀ l ∈ ls.head?, continuesStatement l = false)
include hk hl

theorem groups_append (s : Text) : groups (s :: (ks ++ ls)) = (s :: ks) :: groups ls := by
  have hcut : (s :: ks).splitBy (fun _ l => continuesStatement l) = [s :: ks] := by
    refine List.splitBy_of_isChain (List.cons_ne_nil s ks) ?_
    induction ks generalizing s with
    | nil => exact .singleton s
    | cons k ks ih =>
      refine .cons_cons (hk k (List.mem_cons_self ..)) (ih (fun m hm => ?_) k)
      exact hk m (List.mem_cons_of_mem _ hm)
  rw [groups, ← List.cons_append, List.splitBy_append fun _ _ => hl, hcut]
  rfl

end

/-! ## Statements -/

theorem groupStatement_start {s : Text} (hs : continuesStatement s = false) (ks : List Text) :
    groupStatement (s :: ks) = joined s ks := by
  rw [groupStatement, if_neg (by simp [hs])]

theorem groupStatement_continuation {k : Text} (hk : continuesStatement k = true)
    (ks : List Text) :
    groupStatement (k :: ks) = joined [] (k :: ks) := by
  rw [groupStatement, if_pos hk]

/-- With a statement in flight, the continuations that come next go to it, and every group behind them
is a statement. -/
theorem yields_groups {ls : List Text} :
    ∀ {p : Text} {continuing : Bool} {ks : List Text},
      (∀ k ∈ ks, continuesStatement k = true) → (∀ l ∈ ls.head?, continuesStatement l = false) →
      yields .split p continuing [] (ks ++ ls) = joined p ks :: (groups ls).map groupStatement := by
  induction hn : ls.length using Nat.strongRecOn generalizing ls with
  | ind n ih =>
    intro p continuing ks hk hl
    rw [yields_continuations hk]
    cases ls with
    | nil => rfl
    | cons s ls =>
      have hs : continuesStatement s = false := hl s rfl
      obtain ⟨ms, rest, rfl, hm, hr⟩ := exists_span continuesStatement ls
      have hlen : rest.length < n := by
        rw [← hn, List.length_cons, List.length_append]
        omega
      rw [yields_start hs (by simp), ih rest.length hlen rfl hm hr, groups_append hm hr,
        List.map_cons, groupStatement_start hs, List.nil_append]

theorem statements_split (emptyDeck : EmptyDeck) (ls : List Text) :
    statements ⟨.split, emptyDeck⟩ ls = groupedStatements emptyDeck (trimmedLines ls) := by
  cases h : trimmedLines ls with
  | nil =>
    rw [statements_blank h, groupedStatements]
    simp [groups]
  | cons l rest =>
    obtain ⟨ks, more, rfl, hk, hm⟩ := exists_span continuesStatement rest
    rw [groupedStatements, if_neg (by simp), groups_append hk hm, List.map_cons]
    by_cases hl : continuesStatement l = true
    · have hlk : ∀ k ∈ l :: ks, continuesStatement k = true := List.forall_mem_cons.mpr ⟨hl, hk⟩
      rw [statements_continuation h hl, ← List.cons_append, yields_groups hlk hm,
        groupStatement_continuation hl]
    · rw [Bool.not_eq_true] at hl
      rw [statements_start h hl, yields_groups hk hm, groupStatement_start hl]

/-- **Statements are groups of lines.** Under `split` the calls give one statement for each group of
the trimmed lines that are not blank, in their order, and then none for ever. -/
theorem split_gives_groups (emptyDeck : EmptyDeck) (ls : List Text) (k : Nat) :
    ((Statements.ofLines ⟨.split, emptyDeck⟩ ls).skip k).next.1 =
      (groupedStatements emptyDeck (trimmedLines ls))[k]? := by
  rw [(Statements.gives_assemble _ ls).statement k, ← statements_split]
  rfl

example :
    statements ⟨.split, .emptyLine⟩
        ["+0".toList, " ".toList, "* in".toList, "*+ V".toList, "+*".toList, "R1".toList] =
      [" 0".toList, "* in V ".toList, "R1".toList] := by
  decide

end SpiceDeck
