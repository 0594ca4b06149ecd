import SpiceDeck.Command.Run
import SpiceDeck.Proofs.Deck.LineSources

/-!
# Decks with the same lines

What a deck is to the program is its lines, trimmed and without the blank ones. Two decks with the same
lines cannot be told apart by anything that comes behind the sources of lines, whole runs of the program
included (`Alike`, `line_sources_agree`).
-/

namespace SpiceDeck

open Text Utf8

namespace Command

section
variable {t u : Text} (h : trimmedLines (lines t) = trimmedLines (lines u))
include h

/-! ## Requests -/

theorem execute_alike (layout : Layout) (options : Options) (output : Output) (tree : FileTree) :
    let outcome := Request.execute ⟨layout, options, .bytes (encode t), output⟩ tree
    Request.execute ⟨layout, options, .bytes (encode u), output⟩ tree =
      { outcome with report := outcome.report.map (·.withLinesRead (lines u).length) } := by
  have ha : (Source.ofBytes (encode t)).text? = some t := Source.text?_ofBytes_encode t
  have hb : (Source.ofBytes (encode u)).text? = some u := Source.text?_ofBytes_encode u
  have hp : ∀ d, Request.prepare ⟨layout, options, .bytes d, output⟩ tree = .ok (.ofBytes d) :=
    fun d => rfl
  have hm : ∀ result : Except Fault Report,
      (result.map (·.withLinesRead (lines u).length)).mapError Failure.io =
        (result.mapError Failure.io).map (·.withLinesRead (lines u).length) := by
    intro result
    cases result <;> rfl
  intro outcome
  simp only [outcome, Request.execute, hp]
  cases output with
  | path path =>
    simp only [Request.store]
    cases tree.create path with
    | error fault => rfl
    | ok created => simp only [transfer_alike h layout options .unlimited ha hb, hm]
  | standard => simp only [Request.deliver, transfer_alike h layout options .unlimited ha hb, hm]
  | sink sink => simp only [Request.deliver, transfer_alike h layout options sink ha hb, hm]

theorem runRequest_alike (tree : FileTree) (layout : Layout) (options : Options) (operand : Text)
    (output : Output) {message : Report → Text → Text}
    (hm : ∀ report n, message (report.withLinesRead n) = message report) :
    runRequest ⟨encode t, tree⟩ ⟨layout, options, inputOf (encode t) operand, output⟩ message =
      runRequest ⟨encode u, tree⟩ ⟨layout, options, inputOf (encode u) operand, output⟩ message := by
  by_cases hi : isStandardInput operand = true
  · simp only [inputOf, if_pos hi, runRequest, execute_alike h]
    cases (Request.execute ⟨layout, options, .bytes (encode t), output⟩ tree).report with
    | error failure => rfl
    | ok report => simp only [Except.map, hm]
  · simp only [inputOf, if_neg hi]
    rfl

theorem listFindings_alike (tree : FileTree) (options : Options) (operand substring : Text)
    (format : ListingFormat) :
    listFindings ⟨encode t, tree⟩ options operand substring format =
      listFindings ⟨encode u, tree⟩ options operand substring format := by
  have ha : (Source.ofBytes (encode t)).text? = some t := Source.text?_ofBytes_encode t
  have hb : (Source.ofBytes (encode u)).text? = some u := Source.text?_ofBytes_encode u
  by_cases hi : isStandardInput operand = true
  · simp only [listFindings, openDeck, if_pos hi, readAll_alike h options ha hb]
  · simp only [listFindings, openDeck, if_neg hi]

/-! ## Runs -/

theorem perform_alike (tree : FileTree) (settings : Settings) (action : Action) :
    perform ⟨encode t, tree⟩ settings action = perform ⟨encode u, tree⟩ settings action := by
  cases action with
  | unwrap input output =>
    exact runRequest_alike h tree .oneLine settings.options input _ fun _ _ => rfl
  | reflow input output =>
    simp only [perform]
    cases settings.widthInForce with
    | error failure => rfl
    | ok width =>
      exact runRequest_alike h tree (.wrapped width) settings.options input _ fun _ _ => rfl
  | find input substring format =>
    exact listFindings_alike h tree settings.options input substring format
  | hier path => rfl

theorem run_alike (tree : FileTree) (words : List Text) :
    run ⟨encode t, tree⟩ words = run ⟨encode u, tree⟩ words := by
  unfold run invoke
  cases readArguments words with
  | ok invocation =>
    dsimp only
    cases Settings.load tree invocation.config with
    | error failure => rfl
    | ok file => exact perform_alike h tree _ invocation.action
  | error failure => cases failure <;> rfl

end

end Command

/-! ## Decks that cannot be told apart -/

/-- Nothing behind the sources of lines tells the texts apart. A report does, by the lines read. -/
structure Alike (t u : Text) : Prop where
  statements : ∀ options, (Statements.ofLines options (lines t)).SameCalls
    (Statements.ofLines options (lines u))
  calls : ∀ options (a b : Source), a.text? = some t → b.text? = some u → ∀ k,
    ((Reader.ofSource options a).skip k).next.1 = ((Reader.ofSource options b).skip k).next.1 ∧
      ((Reader.ofSource options a).skip k).counts = ((Reader.ofSource options b).skip k).counts
  transfer : ∀ layout options sink (a b : Source), a.text? = some t → b.text? = some u →
    transfer layout options b sink =
      ((transfer layout options a sink).1.map (·.withLinesRead (lines u).length),
        (transfer layout options a sink).2)
  run : ∀ tree words, Command.run ⟨encode t, tree⟩ words = Command.run ⟨encode u, tree⟩ words

theorem alike {t u : Text} (h : trimmedLines (lines t) = trimmedLines (lines u)) : Alike t u := by
  have hs : ∀ options, (Statements.ofLines options (lines t)).SameCalls
      (Statements.ofLines options (lines u)) := by
    intro options k
    have hsame : (Statements.ofLines options (lines t)).trimmed =
        (Statements.ofLines options (lines u)).trimmed :=
      congrArg (Statements.mk (.start options)) h
    obtain ⟨hcall, hcounts⟩ := (Statements.ofLines options (lines t)).sameCalls_trimmed k
    obtain ⟨hcall', hcounts'⟩ := (Statements.ofLines options (lines u)).sameCalls_trimmed k
    rw [hcall, hcounts, hcall', hcounts', hsame]
    exact ⟨rfl, rfl⟩
  refine ⟨hs, fun options a b ha hb k => ?_, fun layout options sink a b ha hb => ?_, ?_⟩
  · obtain ⟨hcall, hcounts⟩ := Reader.calls_ofSource options ha k
    obtain ⟨hcall', hcounts'⟩ := Reader.calls_ofSource options hb k
    rw [hcall, hcounts, hcall', hcounts', (hs options k).1, (hs options k).2]
    exact ⟨rfl, rfl⟩
  · exact transfer_alike h layout options sink ha hb
  · exact Command.run_alike h

/-- **It does not matter where the lines come from.** A feed on a source that brings a text gives the
lines of the text, trimmed and without the blank ones, call by call as the list of its lines does, and
counts the lines it has read, the blank ones too. The statements of lines, and the counts, are after
each call those of the lines without the blank ones, and a reader gives the same. So texts with the
same lines are alike. -/
theorem line_sources_agree {source : Source} {t : Text} (h : source.text? = some t)
    (options : Options) :
    (LineFeed.ofSource source).Filters (lines t) ∧
      (∀ ls, (Statements.ofLines options ls).SameCalls
        (Statements.ofLines options (trimmedLines ls))) ∧
      (∀ k, ((Reader.ofSource options source).skip k).next.1 =
          ((Statements.ofLines options (trimmedLines (lines t))).skip k).next.1.map .ok ∧
        ((Reader.ofSource options source).skip k).counts =
          ((Statements.ofLines options (trimmedLines (lines t))).skip k).counts) ∧
      ∀ u, trimmedLines (lines u) = trimmedLines (lines t) → Alike t u := by
  have hs : ∀ ls, (Statements.ofLines options ls).SameCalls
      (Statements.ofLines options (trimmedLines ls)) :=
    fun ls => (Statements.ofLines options ls).sameCalls_trimmed
  refine ⟨LineFeed.filters_ofSource h, hs, fun k => ?_, fun u hu => alike hu.symm⟩
  obtain ⟨hcall, hcounts⟩ := Reader.calls_ofSource options h k
  rw [hcall, hcounts, (hs (lines t) k).1, (hs (lines t) k).2]
  exact ⟨rfl, rfl⟩

/-- One deck has returns, a line that is blank without a space and no newline at the end, and it comes
in pieces. -/
theorem line_sources_agree_returns :
    let source := Source.ofAnswers
      [.bytes [0x09, 0xC3], .interrupted, .bytes [0xA9, 0x20, 0x61, 0x0D, 0x0D, 0x0A, 0xE2, 0x80],
        .bytes [0xA8, 0x0A, 0x2B, 0x20, 0x31, 0x0D]]
    let t := "\té a\r\r\n\u2028\n+ 1\r".toList
    let u := "é a\n+ 1\n".toList
    source.text? = some t ∧
      lines t = ["\té a\r".toList, "\u2028".toList, "+ 1\r".toList] ∧
      trimmedLines (lines t) = ["é a".toList, "+ 1".toList] ∧
      trimmedLines (lines u) = trimmedLines (lines t) ∧
      (LineFeed.ofSource source).Filters (lines t) ∧ Alike t u := by
  intro source t u
  have hs : source.text? = some t := by decide
  have hu : trimmedLines (lines u) = trimmedLines (lines t) := by decide
  obtain ⟨hfilters, -, -, halike⟩ := line_sources_agree hs ⟨.hold, .nothing⟩
  exact ⟨hs, by decide, by decide, hu, hfilters, halike u hu⟩

end SpiceDeck
