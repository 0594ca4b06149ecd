import SpiceDeck.Proofs.Deck.Reports
import SpiceDeck.Proofs.Layout.Widening

/-!
# What the width does to a report

A write counts the lines that are too wide, and those are the ones that no wrapping could avoid
(`overlong_exact`). A wider reflow reads the same and writes no more lines, no more bytes, and, without
escape sequences, no more lines that are too wide (`reflow_widened`).
-/

namespace SpiceDeck

open Text Utf8

/-- **Lines too wide are unavoidable.** Take a statement without escape sequences. If a line of it is
wider than the width, it has a single word, behind the indent unless it is the first line. A write
to a sink without limit counts one such line if the first word is wider than the width, and one for
each word behind the first line that is too wide with the indent in front. -/
theorem overlong_exact (width : LineWidth) {s : Text} (h : escapeSign ∉ s) :
    let indent := (Marker.ofStatement s).indent
    (∀ l ∈ (wrapStatement width s).head?, width.columns < columns l → l ∈ words s) ∧
      (∀ l ∈ (wrapStatement width s).tail, width.columns < columns l →
        ∃ w ∈ words s, l = indent ++ w) ∧
      ∀ w : Writer, w.layout = .wrapped width → w.sink.limit = none →
        ∃ w', w.write s = (none, w') ∧ w'.metrics.overlong = w.metrics.overlong +
          ((if (words s).head?.any (fun v => width.columns < columns v) then 1 else 0) +
            (laterWords width s).countP fun v => width.columns < columns indent + columns v) := by
  intro indent
  obtain ⟨hfirst, hlater⟩ := exists_wide_word h width
  refine ⟨hfirst, hlater, fun w hl hs => ⟨_, Writer.write_unlimited hs s, ?_⟩⟩
  have hcount : (w.layout.lines s).countP w.layout.overlong = wideWords width s := by
    rw [hl]
    exact countP_overlong h width
  simp only [Writer.wrote, Metrics.plus, hcount]
  rfl

/-- The indent takes all three columns, and the first word fits only because it has none. -/
theorem overlong_exact_indent :
    escapeSign ∉ "*ab 中 c".toList ∧
      wrapStatement ⟨3, by decide⟩ "*ab 中 c".toList =
        ["*ab".toList, "*+ 中".toList, "*+ c".toList] ∧
      ∃ w', (Writer.ofSink (.wrapped ⟨3, by decide⟩) .unlimited).write "*ab 中 c".toList = (none, w') ∧
        w'.metrics.overlong = 2 := by
  refine ⟨by decide, by decide +kernel, ?_⟩
  obtain ⟨w', hw, ho⟩ := (overlong_exact ⟨3, by decide⟩ (s := "*ab 中 c".toList) (by decide)).2.2
    (Writer.ofSink (.wrapped ⟨3, by decide⟩) .unlimited) rfl rfl
  exact ⟨w', hw, ho.trans (by decide +kernel)⟩

/-! ## Decks -/

/-- What is no more for each statement is no more for all of them. -/
theorem flatMap_le {f g : Text → List Text} {μ ν : List Text → Nat}
    (hμ : ∀ ls ms, μ (ls ++ ms) = μ ls + μ ms) (hν : ∀ ls ms, ν (ls ++ ms) = ν ls + ν ms)
    {ss : List Text} (h : ∀ s ∈ ss, μ (f s) ≤ ν (g s)) : μ (ss.flatMap f) ≤ ν (ss.flatMap g) := by
  induction ss with
  | nil =>
    have := hμ [] []
    simp only [List.append_nil, List.flatMap_nil] at this ⊢
    omega
  | cons s ss ih =>
    have hs := h s (List.mem_cons_self ..)
    have ih := ih fun x hx => h x (List.mem_cons_of_mem _ hx)
    rw [List.flatMap_cons, List.flatMap_cons, hμ, hν]
    exact Nat.add_le_add hs ih

theorem escape_not_mem_statementsOfText (options : Options) {t : Text} (h : escapeSign ∉ t) :
    ∀ s ∈ statementsOfText options t, escapeSign ∉ s := by
  apply not_mem_of_mem_statements (by decide)
  intro l hl hc
  obtain ⟨m, hm, hsub⟩ := exists_of_mem_trimmedLines hl
  exact h (mem_of_mem_lines hm (hsub _ hc))

/-- **Widening makes nothing worse.** A reflow to a wider width reads as many lines, assembles the same,
writes no more lines and no more bytes, and, if the deck has no escape character, no more lines that
are too wide. The metrics of both reports are those of the bytes written. -/
theorem reflow_widened {narrow wide : LineWidth} (h : narrow.columns ≤ wide.columns)
    (options : Options) {source : Source} {t : Text} (ht : source.text? = some t) :
    ∃ r r' sink sink',
      reflow narrow options source .unlimited = (.ok r, sink) ∧
      reflow wide options source .unlimited = (.ok r', sink') ∧
      r'.linesRead = r.linesRead ∧ r'.counts = r.counts ∧
      r'.metrics.physical ≤ r.metrics.physical ∧ r'.metrics.bytes ≤ r.metrics.bytes ∧
      (escapeSign ∉ t → r'.metrics.overlong ≤ r.metrics.overlong) ∧
      r.Matches sink.contents ∧ r'.Matches sink'.contents := by
  have hnarrow : reflow narrow options source .unlimited = _ := transfer_eq (.wrapped narrow) options ht
  have hwide : reflow wide options source .unlimited = _ := transfer_eq (.wrapped wide) options ht
  refine ⟨_, _, _, _, hnarrow, hwide, rfl, rfl, ?_, ?_, fun hesc => ?_, ?_, ?_⟩
  · simp only [reportOf, Metrics.plus, Nat.zero_add]
    exact flatMap_le (fun _ _ => List.length_append) (fun _ _ => List.length_append)
      fun s _ => length_wrapStatement_le h
  · simp only [reportOf, Metrics.plus, Nat.zero_add]
    have hadd : ∀ ls ms, (encode (ofLines (ls ++ ms))).length =
        (encode (ofLines ls)).length + (encode (ofLines ms)).length := by
      intro ls ms
      rw [ofLines_append, encode_append, List.length_append]
    exact flatMap_le (μ := fun ls => (encode (ofLines ls)).length)
      (ν := fun ls => (encode (ofLines ls)).length) hadd hadd
      fun s _ => length_encode_wrapStatement_le h
  · simp only [reportOf, Metrics.plus, Nat.zero_add]
    exact flatMap_le (fun _ _ => List.countP_append) (fun _ _ => List.countP_append)
      fun s hs => countP_overlong_le h (escape_not_mem_statementsOfText options hesc s hs)
  · rw [Sink.contents_unlimited_accept]
    exact reportOf_matches (.wrapped narrow) options t
  · rw [Sink.contents_unlimited_accept]
    exact reportOf_matches (.wrapped wide) options t

/-- At the wider width `bcd` moves up to the first line, and only there it fits. -/
theorem reflow_widened_first_line :
    (LineWidth.mk 3 (by decide)).columns ≤ (LineWidth.mk 5 (by decide)).columns ∧
      (Source.ofBytes (encode "a bcd\n+ e f".toList)).text? = some "a bcd\n+ e f".toList ∧
      reflowed ⟨3, by decide⟩ ⟨.split, .nothing⟩ "a bcd\n+ e f".toList =
        ["a".toList, "+ bcd".toList, "+ e".toList, "+ f".toList] ∧
      reflowed ⟨5, by decide⟩ ⟨.split, .nothing⟩ "a bcd\n+ e f".toList =
        ["a bcd".toList, "+ e f".toList] ∧
      escapeSign ∉ "a bcd\n+ e f".toList ∧
      ∃ r r' sink sink',
        reflow ⟨3, by decide⟩ ⟨.split, .nothing⟩ (.ofBytes (encode "a bcd\n+ e f".toList))
          .unlimited = (.ok r, sink) ∧
        reflow ⟨5, by decide⟩ ⟨.split, .nothing⟩ (.ofBytes (encode "a bcd\n+ e f".toList))
          .unlimited = (.ok r', sink') ∧
        r'.linesRead = r.linesRead ∧ r'.counts = r.counts ∧
        r'.metrics.physical ≤ r.metrics.physical ∧ r'.metrics.bytes ≤ r.metrics.bytes ∧
        (escapeSign ∉ "a bcd\n+ e f".toList → r'.metrics.overlong ≤ r.metrics.overlong) ∧
        r.Matches sink.contents ∧ r'.Matches sink'.contents :=
  ⟨by decide, Source.text?_ofBytes_encode _, by decide, by decide, by decide,
    reflow_widened (by decide) ⟨.split, .nothing⟩ (Source.text?_ofBytes_encode _)⟩

end SpiceDeck
