import Mathlib.Order.Bounds.Basic
import SpiceDeck.Proofs.Deck.FullSink

/-!
# Statements offered one by one

A writer whose sink is full may be offered more statements. Its sink holds the first bytes of all the
lines that the statements stand for, whatever was refused in between, and from the first line that does
not fit as a whole no line is counted any more (`offers_cut`).
-/

namespace SpiceDeck

open Text Utf8

/-- The bytes of lines, each with its newline. -/
def lineBytes (ls : List Text) : Bytes := encode (ofLines ls)

theorem lineBytes_append (ls ms : List Text) : lineBytes (ls ++ ms) = lineBytes ls ++ lineBytes ms := by
  rw [lineBytes, ofLines_append, encode_append]
  rfl

theorem lineBytes_singleton (l : Text) : lineBytes [l] = encode l ++ Writer.newline := by
  rw [lineBytes, ofLines_cons, ofLines_nil, encode_append, encode_newline]
  rfl

theorem length_lineBytes_append (ls ms : List Text) :
    (lineBytes (ls ++ ms)).length = (lineBytes ls).length + (lineBytes ms).length := by
  rw [lineBytes_append, List.length_append]

/-! ## Lines that fit -/

/-- As many lines as fit whole, from the first one on. -/
def FitWhole (limit : Nat) (ls : List Text) (n : Nat) : Prop :=
  IsGreatest {n | n ≤ ls.length ∧ (lineBytes (ls.take n)).length ≤ limit} n

section
variable {limit n : Nat} {ls : List Text}

theorem fitWhole_all (h : (lineBytes ls).length ≤ limit) : FitWhole limit ls ls.length :=
  ⟨⟨Nat.le_refl _, by rwa [List.take_length]⟩, fun _ hm => hm.1⟩

theorem FitWhole.eq_length (h : FitWhole limit ls n) (hfit : (lineBytes ls).length ≤ limit) :
    n = ls.length :=
  h.unique (fitWhole_all hfit)

/-- A line too many does not count. -/
theorem FitWhole.concat (h : FitWhole limit ls n) {l : Text}
    (hfull : limit < (lineBytes (ls ++ [l])).length) : FitWhole limit (ls ++ [l]) n := by
  obtain ⟨⟨hn, hfit⟩, hmax⟩ := h
  refine ⟨⟨?_, ?_⟩, ?_⟩
  · rw [List.length_append]
    exact Nat.le_add_right_of_le hn
  · rwa [List.take_append_of_le_length hn]
  · rintro m ⟨hm, hmfit⟩
    rw [List.length_append, List.length_singleton] at hm
    by_cases hall : m = ls.length + 1
    · rw [hall, List.take_of_length_le (by simp)] at hmfit
      omega
    · have hm : m ≤ ls.length := by omega
      rw [List.take_append_of_le_length hm] at hmfit
      exact hmax ⟨hm, hmfit⟩

theorem FitWhole.append (h : FitWhole limit ls n) (hfull : limit < (lineBytes ls).length)
    (ms : List Text) : FitWhole limit (ls ++ ms) n := by
  induction ms generalizing ls with
  | nil => rwa [List.append_nil]
  | cons m ms ih =>
    have hmore : limit < (lineBytes (ls ++ [m])).length := by
      rw [length_lineBytes_append]
      omega
    rw [List.append_cons]
    exact ih (h.concat hmore) hmore

end

/-! ## Writing to a sink that may be full -/

section
variable {b : Sink} {limit : Nat} (hb : b.limit = some limit)
include hb

theorem Writer.writeLine_holding {w : Writer} {d : Bytes} (hw : w.sink = b.holding limit d)
    (l : Text) :
    let after : Writer := { w with sink := b.holding limit (d ++ lineBytes [l]) }
    w.writeLine l =
      if (d ++ lineBytes [l]).length ≤ limit then (none, after.countLine (lineBytes [l]).length)
      else (some b.refusal, after) := by
  intro after
  have hline : d ++ lineBytes [l] = d ++ encode l ++ newline := by
    rw [lineBytes_singleton, List.append_assoc]
  have hsize : (lineBytes [l]).length = (encode l).length + 1 := by
    rw [lineBytes_singleton, List.length_append]
    rfl
  unfold writeLine
  rw [hw]
  simp only [Sink.write_holding hb]
  by_cases hfirst : encode l = [] ∨ (d ++ encode l).length ≤ limit
  · rw [if_pos hfirst]
    simp only [Sink.write_holding hb]
    by_cases hfit : (d ++ lineBytes [l]).length ≤ limit
    · have hsecond : newline = [] ∨ (d ++ encode l ++ newline).length ≤ limit :=
        .inr (hline ▸ hfit)
      rw [if_pos hfit, if_pos hsecond, hsize]
      simp only [← hline]
      rfl
    · have hsecond : ¬(newline = [] ∨ (d ++ encode l ++ newline).length ≤ limit) := by
        rw [← hline]
        exact not_or.mpr ⟨by decide, hfit⟩
      rw [if_neg hfit, if_neg hsecond]
      simp only [← hline]
      rfl
  · -- the newline is not even tried, but there was no room for it either
    have hroom : limit ≤ (d ++ encode l).length := by
      have := (not_or.mp hfirst).2
      omega
    have hfit : ¬(d ++ lineBytes [l]).length ≤ limit := by
      have := (not_or.mp hfirst).2
      rw [hline, List.length_append]
      omega
    have hsink : b.holding limit (d ++ encode l) = b.holding limit (d ++ lineBytes [l]) := by
      rw [hline, Sink.holding_full b hroom]
    rw [if_neg hfirst, if_neg hfit, hsink]

end

/-! ## Offers -/

/-- Offers statements one after another, whatever became of those before, and gives what became of
each. -/
def Writer.offer (w : Writer) : List Text → List (Option Fault) × Writer
  | [] => ([], w)
  | s :: ss =>
    let (fault, w) := w.write s
    let (faults, w) := w.offer ss
    (fault :: faults, w)

/-- A writer that was offered `n` statements, with these lines in all. -/
structure Offered (b : Sink) (limit : Nat) (layout : Layout) (n : Nat) (ls : List Text) (w : Writer) :
    Prop where
  layout : w.layout = layout
  sink : w.sink = b.holding limit (lineBytes ls)
  logical : w.metrics.logical = n
  physical : FitWhole limit ls w.metrics.physical
  bytes : w.metrics.bytes = (lineBytes (ls.take w.metrics.physical)).length

namespace Offered

section
variable {b : Sink} {limit : Nat} {layout : Layout} {n : Nat} {ls : List Text} {w : Writer}

theorem start (b : Sink) (limit : Nat) (layout : Layout) (hempty : b.taken = #[]) :
    Offered b limit layout 0 [] (.ofSink layout b) where
  layout := rfl
  sink := by
    have hd : (lineBytes []).take limit = [] := List.take_nil
    rw [Sink.holding, hd, ← hempty]
    rfl
  logical := rfl
  physical := fitWhole_all (Nat.zero_le limit)
  bytes := rfl

theorem noteWidth (h : Offered b limit layout n ls w) (l : Text) :
    Offered b limit layout n ls (w.noteWidth l) := by
  unfold Writer.noteWidth
  split
  · exact { h with }
  · exact h

/-- Behind a line that did not fit nothing is counted, so the lines may as well have been offered. -/
theorem append (h : Offered b limit layout n ls w) (hfull : limit < (lineBytes ls).length)
    (ms : List Text) : Offered b limit layout n (ls ++ ms) w where
  layout := h.layout
  sink := by rw [h.sink, lineBytes_append, Sink.holding_full b (Nat.le_of_lt hfull)]
  logical := h.logical
  physical := h.physical.append hfull ms
  bytes := by rw [h.bytes, List.take_append_of_le_length h.physical.1.1]

section
variable (hb : b.limit = some limit)
include hb

theorem writeLine (h : Offered b limit layout n ls w) (l : Text) :
    (w.writeLine l).1 = (if (lineBytes (ls ++ [l])).length ≤ limit then none else some b.refusal) ∧
      Offered b limit layout n (ls ++ [l]) (w.writeLine l).2 := by
  have hw := Writer.writeLine_holding hb h.sink l
  dsimp only at hw
  rw [← lineBytes_append] at hw
  by_cases hfit : (lineBytes (ls ++ [l])).length ≤ limit
  · rw [if_pos hfit] at hw
    have hle : (lineBytes ls).length ≤ limit := by
      rw [length_lineBytes_append] at hfit
      omega
    have hlen : w.metrics.physical + 1 = (ls ++ [l]).length := by
      rw [h.physical.eq_length hle, List.length_append]
      rfl
    rw [hw, if_pos hfit]
    refine ⟨rfl, h.layout, rfl, h.logical, ?_, ?_⟩
    · show FitWhole limit (ls ++ [l]) (w.metrics.physical + 1)
      rw [hlen]
      exact fitWhole_all hfit
    · show w.metrics.bytes + (lineBytes [l]).length =
        (lineBytes ((ls ++ [l]).take (w.metrics.physical + 1))).length
      rw [hlen, List.take_length, length_lineBytes_append, h.bytes, h.physical.eq_length hle,
        List.take_length]
  · rw [if_neg hfit] at hw
    rw [hw, if_neg hfit]
    refine ⟨rfl, h.layout, rfl, h.logical, h.physical.concat (Nat.lt_of_not_le hfit), ?_⟩
    rw [List.take_append_of_le_length h.physical.1.1]
    exact h.bytes

theorem writeLines (ms : List Text) (h : Offered b limit layout n ls w) :
    (w.writeLines ms).1 =
        (if ms ≠ [] ∧ limit < (lineBytes (ls ++ ms)).length then some b.refusal else none) ∧
      Offered b limit layout n (ls ++ ms) (w.writeLines ms).2 := by
  induction ms generalizing ls w with
  | nil =>
    rw [List.append_nil]
    exact ⟨(if_neg fun hm => hm.1 rfl).symm, h⟩
  | cons m ms ih =>
    obtain ⟨hfault, ho⟩ := writeLine hb (h.noteWidth m) m
    rw [List.append_cons]
    rw [Writer.writeLines]
    rcases hw : (w.noteWidth m).writeLine m with ⟨fault, w'⟩
    rw [hw] at hfault ho
    dsimp only at hfault ho
    by_cases hfit : (lineBytes (ls ++ [m])).length ≤ limit
    · rw [if_pos hfit] at hfault
      subst hfault
      obtain ⟨hrest, hoffered⟩ := ih ho
      refine ⟨hrest.trans ?_, hoffered⟩
      by_cases hms : ms = []
      · subst hms
        simp [Nat.not_lt.mpr hfit]
      · simp [hms]
    · rw [if_neg hfit] at hfault
      subst hfault
      have hfull := Nat.lt_of_not_le hfit
      have hmore : limit < (lineBytes (ls ++ [m] ++ ms)).length := by
        rw [length_lineBytes_append]
        omega
      exact ⟨(if_pos ⟨List.cons_ne_nil m ms, hmore⟩).symm, ho.append hfull ms⟩

theorem write (h : Offered b limit layout n ls w) (s : Text) :
    (w.write s).1 = (if layout.lines s ≠ [] ∧ limit < (lineBytes (ls ++ layout.lines s)).length
        then some b.refusal else none) ∧
      Offered b limit layout (n + 1) (ls ++ layout.lines s) (w.write s).2 := by
  rw [← h.layout]
  have hcounted : Offered b limit w.layout (n + 1) ls
      { w with metrics := { w.metrics with logical := w.metrics.logical + 1 } } :=
    { h with layout := rfl, logical := by rw [h.logical] }
  exact writeLines hb (w.layout.lines s) hcounted

theorem offer (h : Offered b limit layout n ls w) (ss : List Text) :
    Offered b limit layout (n + ss.length) (ls ++ ss.flatMap layout.lines) (w.offer ss).2 ∧
      (w.offer ss).1.length = ss.length ∧
      ∀ k s, ss[k]? = some s →
        (w.offer ss).1[k]? = some (if layout.lines s ≠ [] ∧
          limit < (lineBytes (ls ++ (ss.take (k + 1)).flatMap layout.lines)).length
          then some b.refusal else none) := by
  induction ss generalizing n ls w with
  | nil =>
    rw [List.flatMap_nil, List.append_nil]
    exact ⟨h, rfl, fun k s hk => by simp at hk⟩
  | cons s ss ih =>
    obtain ⟨hfault, ho⟩ := write hb h s
    obtain ⟨hoffered, hlen, hfaults⟩ := ih ho
    rw [List.append_assoc] at hoffered
    refine ⟨?_, congrArg (· + 1) hlen, fun k t hk => ?_⟩
    · rw [List.length_cons, Nat.add_comm ss.length 1, ← Nat.add_assoc]
      exact hoffered
    · cases k with
      | zero =>
        obtain rfl : s = t := by simpa using hk
        simpa [Writer.offer] using hfault
      | succ k =>
        rw [List.getElem?_cons_succ] at hk
        rw [List.take_succ_cons, List.flatMap_cons, ← List.append_assoc]
        exact hfaults k t hk

end

end

end Offered

/-- **Offers to a full sink.** Take a sink with a limit, and a writer that goes on after each refusal. In
the end the sink holds the first bytes, up to the limit, of all the lines that the statements stand for.
An offer is refused just when its statement has lines and all the lines up to its last one are more
bytes than the limit. All statements are counted as accepted. As written count those lines that fit
whole, from the first one on, and their bytes. -/
theorem offers_cut (layout : Layout) (ss : List Text) (limit : Nat) (refusal : Fault)
    (flushFails : Bool) :
    let all := ss.flatMap layout.lines
    let run := (Writer.ofSink layout { limit := some limit, refusal, flushFails }).offer ss
    run.2.sink.contents = (lineBytes all).take limit ∧
      run.1.length = ss.length ∧
      (∀ k s, ss[k]? = some s →
        run.1[k]? = some (if layout.lines s ≠ [] ∧
          limit < (lineBytes ((ss.take (k + 1)).flatMap layout.lines)).length
          then some refusal else none)) ∧
      run.2.metrics.logical = ss.length ∧
      IsGreatest {n | n ≤ all.length ∧ (lineBytes (all.take n)).length ≤ limit}
        run.2.metrics.physical ∧
      run.2.metrics.bytes = (lineBytes (all.take run.2.metrics.physical)).length := by
  intro all run
  have hstart := Offered.start { limit := some limit, refusal, flushFails } limit layout rfl
  obtain ⟨ho, hlen, hfaults⟩ := hstart.offer rfl ss
  refine ⟨?_, hlen, hfaults, ?_, ho.physical, ho.bytes⟩
  · rw [ho.sink, Sink.contents_holding, List.nil_append]
  · rw [ho.logical, Nat.zero_add]

end SpiceDeck
