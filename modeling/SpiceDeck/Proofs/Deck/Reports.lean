import SpiceDeck.Proofs.Deck.Transfer
import SpiceDeck.Proofs.Layout.Wrapping
import SpiceDeck.Proofs.Statement.Counting

/-!
# What a report says

The lines read and the counts of a report come from the reading, the metrics from the writing. On a
deck that is a text both streams read the same, and the metrics are those of the bytes that the sink
has taken: no line that is written holds a newline of its own, so each newline ends one.
-/

namespace SpiceDeck

open Text Utf8

section
variable (layout : Layout) (options : Options) (t : Text)

theorem newline_not_mem_transferred : ∀ l ∈ transferred layout options t, '\n' ∉ l := by
  intro l hl
  obtain ⟨s, hs, hl⟩ := List.mem_flatMap.mp hl
  cases layout with
  | oneLine =>
    rw [List.mem_singleton.mp hl]
    exact newline_not_mem_statementsOfText options t s hs
  | wrapped width => exact (isPhysical_of_mem_wrapStatement hl).newline

/-- The metrics of a report say what is in the sink, and as many statements as were assembled. -/
structure Report.Matches (r : Report) (contents : Bytes) : Prop where
  logical : r.metrics.logical = r.counts.logical
  physical : r.metrics.physical = contents.count Source.newline
  bytes : r.metrics.bytes = contents.length

theorem reportOf_matches :
    (reportOf layout options t).Matches (encode (ofLines (transferred layout options t))) where
  logical := by
    have hc := counts_assemble options (lines t)
    simp only [reportOf, Metrics.plus, hc, Nat.zero_add]
    rfl
  physical := by
    have hn := count_newline_encode (ofLines (transferred layout options t))
    rw [count_newline_ofLines (newline_not_mem_transferred layout options t)] at hn
    simp only [reportOf, Metrics.plus, Nat.zero_add]
    exact hn.symm
  bytes := by simp only [reportOf, Metrics.plus, Nat.zero_add]

end

/-- **Reports are exact.** On a deck that is a text, an unwrap writes its statements, a reflow the lines
that each of them is wrapped in, every line with a newline behind it. Both report the same lines read
and the same counts. The metrics of each report say how many statements were assembled, how many
newlines the sink has, and how many bytes. -/
theorem reports_exact (width : LineWidth) (options : Options) {source : Source} {t : Text}
    (h : source.text? = some t) :
    ∃ flat wrapped sink sink',
      unwrap options source .unlimited = (.ok flat, sink) ∧
      reflow width options source .unlimited = (.ok wrapped, sink') ∧
      sink.contents = encode (ofLines (statementsOfText options t)) ∧
      sink'.contents =
        encode (ofLines ((statementsOfText options t).flatMap (wrapStatement width))) ∧
      wrapped.linesRead = flat.linesRead ∧ wrapped.counts = flat.counts ∧
      flat.Matches sink.contents ∧ wrapped.Matches sink'.contents := by
  have hone : transferred .oneLine options t = statementsOfText options t :=
    List.flatMap_singleton' _
  have hflat : unwrap options source .unlimited = _ := transfer_eq .oneLine options h
  have hwrapped : reflow width options source .unlimited = _ := transfer_eq (.wrapped width) options h
  refine ⟨_, _, _, _, hflat, hwrapped, ?_⟩
  rw [Sink.contents_unlimited_accept, Sink.contents_unlimited_accept]
  refine ⟨?_, rfl, rfl, rfl, reportOf_matches .oneLine options t,
    reportOf_matches (.wrapped width) options t⟩
  rw [hone]

/-- A statement of a bare marker is counted and has no line, and a vertical tab ends none. -/
theorem reports_exact_bare_marker :
    (Source.ofBytes (encode "+\nR1\x0ba\r\n+ b".toList)).text? = some "+\nR1\x0ba\r\n+ b".toList ∧
      ∃ flat wrapped sink sink',
        unwrap ⟨.hold, .nothing⟩ (.ofBytes (encode "+\nR1\x0ba\r\n+ b".toList)) .unlimited =
          (.ok flat, sink) ∧
        reflow ⟨4, by decide⟩ ⟨.hold, .nothing⟩ (.ofBytes (encode "+\nR1\x0ba\r\n+ b".toList))
          .unlimited = (.ok wrapped, sink') ∧
        sink.contents = encode " \nR1\x0ba b\n".toList ∧
        sink'.contents = encode "R1 a\n+ b\n".toList ∧
        wrapped.linesRead = flat.linesRead ∧ wrapped.counts = flat.counts ∧
        flat.Matches sink.contents ∧ wrapped.Matches sink'.contents :=
  ⟨Source.text?_ofBytes_encode _,
    reports_exact ⟨4, by decide⟩ ⟨.hold, .nothing⟩ (Source.text?_ofBytes_encode _)⟩

end SpiceDeck
