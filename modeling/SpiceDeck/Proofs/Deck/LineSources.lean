import SpiceDeck.Proofs.Deck.Calls
import SpiceDeck.Proofs.Device.Events
import SpiceDeck.Proofs.Statement.Lookahead

/-!
# Sources of lines

The lines of a deck come from a list or from a source of bytes, and either way they are trimmed and the
blank ones passed over. The two agree call by call (`filters_ofSource`). An assembly trims and passes
over blank lines once more, so it makes no difference which of them it is given (`sameCalls_trimmed`,
`calls_ofSource`), and of two texts with the same lines a transfer makes the same (`transfer_alike`).
-/

namespace SpiceDeck

open Text Utf8

/-! ## Lines of a list and lines of a source -/

namespace Text

/-- The lines that are left after a number of calls. -/
def untaken (ls : List Text) : Nat → List Text
  | 0 => ls
  | k + 1 => untaken (nextTrimmed ls).2 k

theorem nextTrimmed_untaken (ls : List Text) (k : Nat) :
    (nextTrimmed (untaken ls k)).1 = (trimmedLines ls)[k]? := by
  induction k generalizing ls with
  | zero => rw [untaken, fst_nextTrimmed, List.head?_eq_getElem?]
  | succ k ih => rw [untaken, ih, trimmedLines_nextTrimmed, List.getElem?_tail]

theorem untaken_of_end {ls : List Text} {k : Nat} (h : (trimmedLines ls).length < k) :
    untaken ls k = [] := by
  induction k generalizing ls with
  | zero => cases h
  | succ k ih =>
    rw [untaken]
    cases ht : trimmedLines ls with
    | nil =>
      rw [nextTrimmed_of_blank ht]
      cases k with
      | zero => rfl
      | succ k => exact ih (by simp)
    | cons l rest =>
      apply ih
      rw [trimmedLines_nextTrimmed, ht, List.tail_cons]
      rw [ht, List.length_cons] at h
      omega

end Text

namespace LineFeed

theorem get_calls {t : Text} {f : LineFeed} (h : f.source.bytes? = some (encode t)) (k : Nat) :
    (f.calls.get k).item = .ok (nextTrimmed (untaken (lines t) k)).1 ∧
      (f.calls.get k).linesRead + (untaken (lines t) (k + 1)).length =
        f.linesRead + (lines t).length := by
  induction k generalizing t f with
  | zero =>
    obtain ⟨f', r, hn, -, hr, hc⟩ := next_lines h
    rw [calls_eq, hn]
    refine ⟨rfl, ?_⟩
    rw [← hc, hr]
    rfl
  | succ k ih =>
    obtain ⟨f', r, hn, hb, hr, hc⟩ := next_lines h
    obtain ⟨hitem, hread⟩ := ih hb
    rw [calls_eq, hn, untaken, untaken, ← hr, ← hc]
    exact ⟨hitem, hread⟩

/-- Call after call the feed gives the line that the list gives, without a fault, and has read as many
lines as have been taken from the list. -/
structure Filters (f : LineFeed) (ls : List Text) : Prop where
  item : ∀ k, (f.calls.get k).item = .ok (trimmedLines ls)[k]?
  list : ∀ k, (nextTrimmed (untaken ls k)).1 = (trimmedLines ls)[k]?
  read : ∀ k, (f.calls.get k).linesRead + (untaken ls (k + 1)).length = ls.length
  whole : ∀ k, (trimmedLines ls).length ≤ k → (f.calls.get k).linesRead = ls.length

theorem filters_ofSource {source : Source} {t : Text} (h : source.text? = some t) :
    (ofSource source).Filters (lines t) := by
  have hb : (ofSource source).source.bytes? = some (encode t) := Source.bytes?_of_text? h
  have hread : ∀ k, ((ofSource source).calls.get k).linesRead +
      (untaken (lines t) (k + 1)).length = (lines t).length := by
    intro k
    rw [(get_calls hb k).2]
    exact Nat.zero_add _
  refine ⟨fun k => ?_, nextTrimmed_untaken (lines t), hread, fun k hk => ?_⟩
  · rw [(get_calls hb k).1, nextTrimmed_untaken]
  · rw [← hread k, untaken_of_end (Nat.lt_succ_of_le hk)]
    rfl

end LineFeed

/-! ## Statements of lines with and without the blank ones -/

namespace Statements

open Assembly

/-- The view of the same lines with their blank ends removed, the blank ones left out. -/
def trimmed (s : Statements) : Statements := { s with lines := trimmedLines s.lines }

theorem pull_trimmedLines (a : Assembly) (ls : List Text) :
    pull a (trimmedLines ls) = ((pull a ls).1, (pull a ls).2.trimmed) := by
  induction ls generalizing a with
  | nil => rfl
  | cons l ls ih =>
    cases hr : a.ready with
    | cons x r =>
      rw [pull_of_ready hr, pull_of_ready hr]
      rfl
    | nil =>
      by_cases hf : a.finished = true
      · -- no line is taken any more, so both keep what they have left
        have hs : Spent ⟨a, l :: ls⟩ := spent_of_finished hf hr
        have hleft : pull a (trimmedLines (l :: ls)) = (none, ⟨a, trimmedLines (l :: ls)⟩) := hs _
        have hright : pull a (l :: ls) = (none, ⟨a, l :: ls⟩) := hs _
        rw [hleft, hright]
        rfl
      · rw [trimmedLines_cons, pull_line hr hf l ls]
        by_cases hb : trim l = []
        · rw [if_pos hb, push_blank a hb, ih]
        · rw [if_neg hb, pull_line hr hf, push_trim, ih]

theorem next_trimmed (s : Statements) : s.trimmed.next = (s.next.1, s.next.2.trimmed) :=
  pull_trimmedLines s.assembly s.lines

theorem skip_trimmed (s : Statements) (k : Nat) : s.trimmed.skip k = (s.skip k).trimmed := by
  induction k with
  | zero => rfl
  | succ k ih => rw [skip_succ, ih, next_trimmed, skip_succ]

/-- Call after call the views give the same statement and have the same counts behind them. -/
def SameCalls (s s' : Statements) : Prop :=
  ∀ k, (s.skip k).next.1 = (s'.skip k).next.1 ∧ (s.skip k).counts = (s'.skip k).counts

theorem sameCalls_trimmed (s : Statements) : s.SameCalls s.trimmed := by
  intro k
  rw [skip_trimmed, next_trimmed]
  exact ⟨rfl, rfl⟩

end Statements

namespace Reader

/-- The reader stands as the view does, and its source brings the lines that are left. A feed passes
over blank lines before the reader sees them, so the view has none. -/
structure Mirrors (r : Reader) (s : Statements) : Prop where
  reading : r.failed = false
  assembly : r.assembly = s.assembly
  lines : ∃ t, r.feed.source.bytes? = some (encode t) ∧ trimmedLines (Text.lines t) = s.lines

/-- **One call.** -/
theorem Mirrors.next {r : Reader} {s : Statements} (h : r.Mirrors s) :
    r.next.1 = s.next.1.map .ok ∧ r.next.2.Mirrors s.next.2 := by
  obtain ⟨a, ls⟩ := s
  fun_induction Reader.next r generalizing a ls with
  | case1 r hfailed => exact absurd (hfailed.symm.trans h.reading) (by decide)
  | case2 r _ x b hp =>
    obtain ⟨hreading, rfl, hlines⟩ := h
    have hnext : Statements.next ⟨r.assembly, ls⟩ = (some x, ⟨b, ls⟩) := by
      cases hr : r.assembly.ready with
      | nil =>
        rw [Assembly.pop_of_empty hr] at hp
        cases hp
      | cons y rest => rw [Statements.next, Statements.pull_of_ready hr, hp]
    rw [hnext]
    exact ⟨rfl, hreading, rfl, hlines⟩
  | case3 r _ b hp hf =>
    obtain ⟨hreading, rfl, hlines⟩ := h
    have hs : Statements.Spent ⟨r.assembly, ls⟩ :=
      Statements.spent_of_finished hf (Assembly.ready_of_pop hp)
    rw [hs ls]
    exact ⟨rfl, hreading, rfl, hlines⟩
  | case4 r _ b hp hf fault feed hn =>
    obtain ⟨t, hb, -⟩ := h.lines
    obtain ⟨feed', u, hn', -⟩ := LineFeed.next_text hb
    rw [hn] at hn'
    cases hn'
  | case5 r _ b hp hf feed hn x c hx =>
    obtain ⟨hreading, rfl, t, hb, rfl⟩ := h
    obtain ⟨feed', u, hn', hb', -, -, hu⟩ := LineFeed.next_text hb
    rw [hn] at hn'
    obtain ⟨hhead, rfl⟩ := Prod.mk.inj hn'
    have hend : trimmedLines (Text.lines t) = [] :=
      List.head?_eq_none_iff.mp (Except.ok.inj hhead).symm
    obtain rfl := hu hend
    have hr : r.assembly.ready = [] := Assembly.ready_of_pop hp
    have hnext : Statements.next ⟨r.assembly, []⟩ = (x, ⟨c, []⟩) := by
      simp only [Statements.next, Statements.pull, hr, List.isEmpty_nil, if_true, hx]
    rw [hend, hnext]
    exact ⟨rfl, hreading, rfl, [], hb', by simp⟩
  | case6 r _ b hp hf line feed hn ih =>
    obtain ⟨hreading, rfl, t, hb, rfl⟩ := h
    obtain ⟨feed', u, hn', hb', htail, -, -⟩ := LineFeed.next_text hb
    rw [hn] at hn'
    obtain ⟨hhead, rfl⟩ := Prod.mk.inj hn'
    obtain ⟨rest, hrest⟩ := List.head?_eq_some_iff.mp (Except.ok.inj hhead).symm
    have hcons : trimmedLines (Text.lines t) = line :: trimmedLines (Text.lines u) := by
      rw [htail, hrest, List.tail_cons]
    have hr : r.assembly.ready = [] := Assembly.ready_of_pop hp
    have hnext : Statements.next ⟨r.assembly, trimmedLines (Text.lines t)⟩ =
        Statements.next ⟨r.assembly.push line, trimmedLines (Text.lines u)⟩ := by
      rw [Statements.next, hcons]
      exact Statements.pull_line hr hf line _
    rw [hnext]
    exact ih _ _ ⟨hreading, rfl, u, hb', rfl⟩

theorem Mirrors.skip {r : Reader} {s : Statements} (h : r.Mirrors s) (k : Nat) :
    (r.skip k).Mirrors (s.skip k) := by
  induction k generalizing r s with
  | zero => exact h
  | succ k ih => exact ih h.next.2

theorem mirrors_ofSource (options : Options) {source : Source} {t : Text}
    (h : source.text? = some t) :
    (ofSource options source).Mirrors (Statements.ofLines options (Text.lines t)).trimmed :=
  ⟨rfl, rfl, t, Source.bytes?_of_text? h, rfl⟩

/-- A reader gives what its lines give, blank ones or none among them. -/
theorem calls_ofSource (options : Options) {source : Source} {t : Text} (h : source.text? = some t)
    (k : Nat) :
    ((ofSource options source).skip k).next.1 =
        ((Statements.ofLines options (Text.lines t)).skip k).next.1.map .ok ∧
      ((ofSource options source).skip k).counts =
        ((Statements.ofLines options (Text.lines t)).skip k).counts := by
  have hm := (mirrors_ofSource options h).skip k
  obtain ⟨hcall, hcounts⟩ := (Statements.ofLines options (Text.lines t)).sameCalls_trimmed k
  rw [hcall, hcounts]
  exact ⟨hm.next.1, congrArg Assembly.counts hm.assembly⟩

end Reader

/-! ## Transfers -/

/-- The report with another number of lines read. -/
def Report.withLinesRead (report : Report) (n : Nat) : Report := { report with linesRead := n }

section
variable {t u : Text} (h : trimmedLines (lines t) = trimmedLines (lines u))
include h

theorem readAll_alike (options : Options) {a b : Source} (ha : a.text? = some t)
    (hb : b.text? = some u) :
    Reader.readAll options b =
      { Reader.readAll options a with linesRead := (lines u).length } := by
  have hsame := assemble_congr options h
  rw [Reader.readAll_text options ha, Reader.readAll_text options hb]
  simp only [statementsOfText, statements, hsame]

theorem transfer_alike (layout : Layout) (options : Options) (sink : Sink) {a b : Source}
    (ha : a.text? = some t) (hb : b.text? = some u) :
    transfer layout options b sink =
      ((transfer layout options a sink).1.map (·.withLinesRead (lines u).length),
        (transfer layout options a sink).2) := by
  unfold transfer
  rw [readAll_alike h options ha hb]
  generalize Reader.readAll options a = c
  dsimp only
  cases (Writer.ofSink layout sink).writeAll c.statements.toList with
  | mk fault w =>
    cases fault with
    | some fault => rfl
    | none =>
      dsimp only
      cases c.fault <|> w.finish <;> rfl

end

end SpiceDeck
