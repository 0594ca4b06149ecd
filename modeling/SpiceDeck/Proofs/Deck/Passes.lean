import SpiceDeck.Proofs.Deck.HeldRoundTrip
import SpiceDeck.Proofs.Statement.Counting

/-!
# One pass after another

A reflow sees the words of the statements and nothing else of them. So what an earlier pass over the
deck did to spaces and lines is gone behind it, if the statements come back: always from an unwrap,
since none of the lines it writes is a continuation (`reflow_after_unwrap`), and under `split` from a
reflow whose later words begin with no sign (`reflow_after_reflow`). A second unwrap only trims the ends
of the statements, and a third changes nothing (`unwrap_after_unwrap`).
-/

namespace SpiceDeck

open Text Utf8

/-- A run meets no fault, and these are the bytes that it writes where there is room for all. -/
def Writes (run : Source → Sink → Except Fault Report × Sink) (source : Source) (data : Bytes) :
    Prop :=
  ∃ report sink, run source .unlimited = (.ok report, sink) ∧ sink.contents = data

theorem Writes.unique {run : Source → Sink → Except Fault Report × Sink} {source : Source}
    {d e : Bytes} (hd : Writes run source d) (he : Writes run source e) : d = e := by
  obtain ⟨r, s, hr, rfl⟩ := hd
  obtain ⟨r', s', hr', rfl⟩ := he
  obtain ⟨-, rfl⟩ := Prod.mk.inj (hr.symm.trans hr')
  rfl

section
variable {t : Text}

/-- The text that an unwrap writes. -/
def unwrapped (options : Options) (t : Text) : Text := ofLines (statementsOfText options t)

theorem unwrap_eq (options : Options) {source : Source} (h : source.text? = some t) :
    unwrap options source .unlimited =
      (.ok (reportOf .oneLine options t), Sink.unlimited.accept (encode (unwrapped options t))) := by
  have hu := transfer_eq .oneLine options h
  rw [transferred_oneLine] at hu
  exact hu

theorem writes_unwrap (options : Options) {source : Source} (h : source.text? = some t) :
    Writes (unwrap options) source (encode (unwrapped options t)) :=
  ⟨_, _, unwrap_eq options h, Sink.contents_unlimited_accept _⟩

theorem writes_reflow (width : LineWidth) (options : Options) {source : Source}
    (h : source.text? = some t) :
    Writes (reflow width options) source (encode (ofLines (reflowed width options t))) :=
  ⟨_, _, transfer_eq (.wrapped width) options h, Sink.contents_unlimited_accept _⟩

/-! ## Behind an unwrap -/

theorem trimmedLines_unwrapped (p : Options) (t : Text) :
    trimmedLines (lines (unwrapped p t)) = trimmedLines (statementsOfText p t) :=
  trimmedLines_lines_ofLines (newline_not_mem_statementsOfText p t)

/-- The statements are taken as they would be if they were the lines of a deck. -/
theorem statementsOfText_unwrapped (p q : Options) (t : Text) :
    statementsOfText q (unwrapped p t) = statements q (statementsOfText p t) := by
  rw [statementsOfText, ← statements_trimmedLines, trimmedLines_unwrapped, statements_trimmedLines]

/-- A blank deck stays blank. -/
theorem trimmedLines_statements_blank (p : Options) (hb : trimmedLines (lines t) = []) :
    trimmedLines (statementsOfText p t) = [] := by
  rw [statementsOfText, statements_blank hb]
  split <;> rfl

theorem reflowed_unwrapped (width : LineWidth) (p q : Options) (hs : StartsStatement (lines t)) :
    reflowed width q (unwrapped p t) = reflowed width p t := by
  rcases hs.cases p with hb | ⟨s, ss, he, hst⟩
  · have hn := trimmedLines_statements_blank p hb
    rw [← trimmedLines_unwrapped] at hn
    rw [reflowed_blank width p hb, reflowed_blank width q hn]
  · have he : statementsOfText p t = s :: ss := he
    have hne : s :: ss ≠ [] := List.cons_ne_nil s ss
    rw [reflowed_eq, reflowed_eq, statementsOfText_unwrapped, he,
      statements_of_statements q hne hst, List.flatMap_map]
    exact List.flatMap_congr fun x _ => wrapStatement_trim width x

/-- **Unwrapping first makes no difference.** Take any options for an unwrap and any for a reflow of
what it wrote. The reflow writes byte for byte what a reflow of the deck itself writes with the options
of the unwrap, however either text comes from its source. -/
theorem reflow_after_unwrap (width : LineWidth) (p q : Options) {source : Source}
    (ht : source.text? = some t) (hs : StartsStatement (lines t)) :
    ∃ flat written, Writes (unwrap p) source flat ∧ Writes (reflow width p) source written ∧
      ∀ second : Source, second.bytes? = some flat → Writes (reflow width q) second written := by
  refine ⟨_, _, writes_unwrap p ht, writes_reflow width p ht, fun second h => ?_⟩
  rw [← reflowed_unwrapped width p q hs]
  exact writes_reflow width q (Source.text?_of_bytes? h)

/-- The comment that waited in the first pass is an ordinary line in the second. -/
theorem reflow_after_unwrap_held :
    (Source.ofBytes (encode "R1 a\n+ b\n* c\n+ d".toList)).text? =
        some "R1 a\n+ b\n* c\n+ d".toList ∧
      StartsStatement (lines "R1 a\n+ b\n* c\n+ d".toList) ∧
      Writes (unwrap ⟨.hold, .nothing⟩) (.ofBytes (encode "R1 a\n+ b\n* c\n+ d".toList))
        (encode "R1 a b d\n* c\n".toList) ∧
      Writes (reflow ⟨5, by decide⟩ ⟨.hold, .nothing⟩)
        (.ofBytes (encode "R1 a\n+ b\n* c\n+ d".toList)) (encode "R1 a\n+ b d\n* c\n".toList) ∧
      ∀ second : Source, second.bytes? = some (encode "R1 a b d\n* c\n".toList) →
        Writes (reflow ⟨5, by decide⟩ ⟨.split, .nothing⟩) second
          (encode "R1 a\n+ b d\n* c\n".toList) := by
  have ht := Source.text?_ofBytes_encode "R1 a\n+ b\n* c\n+ d".toList
  have hs : StartsStatement (lines "R1 a\n+ b\n* c\n+ d".toList) := by decide
  obtain ⟨flat, written, hflat, hwritten, hsecond⟩ :=
    reflow_after_unwrap ⟨5, by decide⟩ ⟨.hold, .nothing⟩ ⟨.split, .nothing⟩ ht hs
  obtain rfl : flat = encode "R1 a b d\n* c\n".toList :=
    (hflat.unique (writes_unwrap _ ht)).trans (by decide)
  obtain rfl : written = encode "R1 a\n+ b d\n* c\n".toList :=
    (hwritten.unique (writes_reflow _ _ ht)).trans (by decide)
  exact ⟨ht, hs, hflat, hwritten, hsecond⟩

/-! ## Unwrapping again -/

/-- No line that an unwrap writes continues another. -/
theorem begins_unwrapped (options : Options) (hs : StartsStatement (lines t)) :
    ∀ l ∈ trimmedLines (lines (unwrapped options t)), continuesStatement l = false := by
  intro l hl
  rw [trimmedLines_unwrapped] at hl
  rcases hs.cases options with hb | ⟨s, ss, he, hst⟩
  · rw [trimmedLines_statements_blank options hb] at hl
    cases hl
  · have he : statementsOfText options t = s :: ss := he
    rw [he, trimmedLines_of_statements hst] at hl
    obtain ⟨x, hx, rfl⟩ := List.mem_map.mp hl
    exact (hst x hx).trim.begins

theorem startsStatement_unwrapped (options : Options) (hs : StartsStatement (lines t)) :
    StartsStatement (lines (unwrapped options t)) := by
  unfold StartsStatement
  rw [Option.any_eq_false]
  intro l hl
  have hb := begins_unwrapped options hs l (List.mem_of_head? hl)
  simp [hb]

theorem statementsOfText_again (options : Options) (hs : StartsStatement (lines t)) :
    statementsOfText options (unwrapped options t) = (statementsOfText options t).map trimRight := by
  rw [statementsOfText_unwrapped]
  rcases hs.cases options with hb | ⟨s, ss, he, hst⟩
  · rw [statements_blank (trimmedLines_statements_blank options hb), statementsOfText,
      statements_blank hb]
    split <;> rfl
  · have he : statementsOfText options t = s :: ss := he
    rw [he, statements_of_statements options (List.cons_ne_nil s ss) hst]
    apply List.map_congr_left
    intro x hx
    exact (trimRight_eq_trim (hst x hx).head).symm

/-- Behind the second unwrap nothing is left to trim. -/
theorem unwrapped_again (options : Options) (hs : StartsStatement (lines t)) :
    unwrapped options (unwrapped options (unwrapped options t)) =
      unwrapped options (unwrapped options t) := by
  have hfirst := statementsOfText_again options hs
  have hsecond := statementsOfText_again options (startsStatement_unwrapped options hs)
  have htrim : trimRight ∘ trimRight = trimRight := funext trimRight_trimRight
  rw [hfirst, List.map_map, htrim, ← hfirst] at hsecond
  exact congrArg ofLines hsecond

theorem counts_unwrapped (options : Options) (hs : StartsStatement (lines t)) :
    (assemble options (lines (unwrapped options t))).2 =
      { physical := (trimmedLines (lines (unwrapped options t))).length
        continuation := 0
        logical := (statementsOfText options t).length
        held := 0 } := by
  have hb := begins_unwrapped options hs
  have hc : (trimmedLines (lines (unwrapped options t))).countP continuesStatement = 0 := by
    rw [List.countP_eq_zero]
    intro l hl
    simp [hb l hl]
  have hn : (statements options (lines (unwrapped options t))).length =
      (statementsOfText options t).length := by
    have hagain := congrArg List.length (statementsOfText_again options hs)
    rwa [List.length_map] at hagain
  rw [counts_assemble, hc, hn, waits_begun hb]

/-- **Unwrapping settles at once.** An unwrap of what an unwrap wrote gives the same statements without
the blanks at their ends, with no continuation counted and no comment that waited. What it writes is
written again byte for byte by a third, however each text comes from its source. -/
theorem unwrap_after_unwrap (options : Options) {source : Source} (ht : source.text? = some t)
    (hs : StartsStatement (lines t)) :
    Writes (unwrap options) source (encode (unwrapped options t)) ∧
      statementsOfText options (unwrapped options t) = (statementsOfText options t).map trimRight ∧
      (∀ second : Source, second.bytes? = some (encode (unwrapped options t)) →
        ∃ report sink, unwrap options second .unlimited = (.ok report, sink) ∧
          sink.contents = encode (unwrapped options (unwrapped options t)) ∧
          report.counts.logical = (statementsOfText options t).length ∧
          report.counts.continuation = 0 ∧ report.counts.held = 0) ∧
      ∀ third : Source, third.bytes? = some (encode (unwrapped options (unwrapped options t))) →
        Writes (unwrap options) third (encode (unwrapped options (unwrapped options t))) := by
  refine ⟨writes_unwrap options ht, statementsOfText_again options hs, ?_, ?_⟩
  · intro second h
    refine ⟨_, _, unwrap_eq options (Source.text?_of_bytes? h), Sink.contents_unlimited_accept _, ?_⟩
    have hc := counts_unwrapped options hs
    unfold reportOf
    rw [hc]
    exact ⟨rfl, rfl, rfl⟩
  · intro third h
    have hw := writes_unwrap options (Source.text?_of_bytes? h)
    rwa [unwrapped_again options hs] at hw

/-- A bare marker leaves a space at the end of its statement, which the second unwrap removes. -/
theorem unwrap_after_unwrap_bare_marker :
    (Source.ofBytes (encode "R1 a\n+\n* c".toList)).text? = some "R1 a\n+\n* c".toList ∧
      StartsStatement (lines "R1 a\n+\n* c".toList) ∧
      Writes (unwrap ⟨.hold, .nothing⟩) (.ofBytes (encode "R1 a\n+\n* c".toList))
        (encode "R1 a \n* c\n".toList) ∧
      statementsOfText ⟨.hold, .nothing⟩ "R1 a \n* c\n".toList = ["R1 a".toList, "* c".toList] ∧
      (∀ second : Source, second.bytes? = some (encode "R1 a \n* c\n".toList) →
        ∃ report sink, unwrap ⟨.hold, .nothing⟩ second .unlimited = (.ok report, sink) ∧
          sink.contents = encode "R1 a\n* c\n".toList ∧ report.counts.logical = 2 ∧
          report.counts.continuation = 0 ∧ report.counts.held = 0) ∧
      ∀ third : Source, third.bytes? = some (encode "R1 a\n* c\n".toList) →
        Writes (unwrap ⟨.hold, .nothing⟩) third (encode "R1 a\n* c\n".toList) :=
  ⟨Source.text?_ofBytes_encode _, by decide,
    unwrap_after_unwrap ⟨.hold, .nothing⟩ (Source.text?_ofBytes_encode _) (by decide)⟩

/-! ## Behind a reflow -/

theorem reflowed_reflowed (first second : LineWidth) (emptyDeck : EmptyDeck)
    (hs : StartsStatement (lines t))
    (hw : ∀ s ∈ statementsOfText ⟨.split, emptyDeck⟩ t, SignsFirst s) :
    reflowed second ⟨.split, emptyDeck⟩ (ofLines (reflowed first ⟨.split, emptyDeck⟩ t)) =
      reflowed second ⟨.split, emptyDeck⟩ t := by
  rw [reflowed_eq, statementsOfText_reflowed first emptyDeck hs, reflowed_eq, List.flatMap_map]
  apply List.flatMap_congr
  intro s hm
  rw [reread_of_signsFirst first (hw s hm)]
  exact wrapStatement_normalize second s

/-- **Reflows compose.** If no word but the first of a statement begins with a sign, then a reflow of
what another reflow wrote writes byte for byte what it would make of the deck itself. -/
theorem reflow_after_reflow (first second : LineWidth) (emptyDeck : EmptyDeck) {source : Source}
    (ht : source.text? = some t) (hs : StartsStatement (lines t))
    (hw : ∀ s ∈ statementsOfText ⟨.split, emptyDeck⟩ t, SignsFirst s) :
    ∃ once written, Writes (reflow first ⟨.split, emptyDeck⟩) source once ∧
      Writes (reflow second ⟨.split, emptyDeck⟩) source written ∧
      ∀ again : Source, again.bytes? = some once →
        Writes (reflow second ⟨.split, emptyDeck⟩) again written := by
  refine ⟨_, _, writes_reflow first _ ht, writes_reflow second _ ht, fun again h => ?_⟩
  rw [← reflowed_reflowed first second emptyDeck hs hw]
  exact writes_reflow second _ (Source.text?_of_bytes? h)

/-- The first pass is narrower than the words, and the second puts them back on one line. -/
theorem reflow_after_reflow_narrow :
    (Source.ofBytes (encode "R1 a b\n* c+d\n*+ e".toList)).text? =
        some "R1 a b\n* c+d\n*+ e".toList ∧
      StartsStatement (lines "R1 a b\n* c+d\n*+ e".toList) ∧
      (∀ s ∈ statementsOfText ⟨.split, .nothing⟩ "R1 a b\n* c+d\n*+ e".toList, SignsFirst s) ∧
      Writes (reflow ⟨1, by decide⟩ ⟨.split, .nothing⟩)
        (.ofBytes (encode "R1 a b\n* c+d\n*+ e".toList))
        (encode "R1\n+ a\n+ b\n*\n*+ c+d\n*+ e\n".toList) ∧
      Writes (reflow ⟨80, by decide⟩ ⟨.split, .nothing⟩)
        (.ofBytes (encode "R1 a b\n* c+d\n*+ e".toList)) (encode "R1 a b\n* c+d e\n".toList) ∧
      ∀ again : Source,
        again.bytes? = some (encode "R1\n+ a\n+ b\n*\n*+ c+d\n*+ e\n".toList) →
        Writes (reflow ⟨80, by decide⟩ ⟨.split, .nothing⟩) again
          (encode "R1 a b\n* c+d e\n".toList) := by
  have ht := Source.text?_ofBytes_encode "R1 a b\n* c+d\n*+ e".toList
  have hs : StartsStatement (lines "R1 a b\n* c+d\n*+ e".toList) := by decide
  have hw : ∀ s ∈ statementsOfText ⟨.split, .nothing⟩ "R1 a b\n* c+d\n*+ e".toList,
      SignsFirst s := by decide
  obtain ⟨once, written, honce, hwritten, hagain⟩ :=
    reflow_after_reflow ⟨1, by decide⟩ ⟨80, by decide⟩ .nothing ht hs hw
  obtain rfl : once = encode "R1\n+ a\n+ b\n*\n*+ c+d\n*+ e\n".toList :=
    (honce.unique (writes_reflow _ _ ht)).trans (by decide)
  obtain rfl : written = encode "R1 a b\n* c+d e\n".toList :=
    (hwritten.unique (writes_reflow _ _ ht)).trans (by decide)
  exact ⟨ht, hs, hw, honce, hwritten, hagain⟩

end

end SpiceDeck
