import SpiceDeck.Proofs.Deck.Transfer
import SpiceDeck.Proofs.Statement.Iteration

/-!
# Bytes and text

Reading bytes line by line agrees with decoding them first: a deck is refused just when its bytes are
no UTF-8, wherever the fault is, and otherwise it is read as its text is (`unwrap_agrees`).
-/

namespace SpiceDeck

open Text Utf8

/-- Bytes that are no text end the reading with a fault. -/
theorem Reader.fault_of_undecodable (done : Array Text) (r : Reader) {d : Bytes}
    (h : r.feed.source.bytes? = some d) (hd : decode d = none) :
    (collect done r).fault = some .invalidUtf8 := by
  fun_induction collect done r generalizing d with
  | case1 done r fault feed hn =>
    rcases LineFeed.next_undecodable hd h with ⟨f', he⟩ | ⟨l, f', more, he, -⟩
    · rw [hn] at he
      cases he
      rfl
    · rw [hn] at he
      cases he
  | case2 done r feed hn =>
    rcases LineFeed.next_undecodable hd h with ⟨f', he⟩ | ⟨l, f', more, he, -⟩ <;>
      (rw [hn] at he; cases he)
  | case3 done r line feed hn released assembly hr ih =>
    rcases LineFeed.next_undecodable hd h with ⟨f', he⟩ | ⟨l, f', more, he, hb, hm⟩
    · rw [hn] at he
      cases he
    · rw [hn] at he
      cases he
      exact ih hb hm

theorem transfer_undecodable (layout : Layout) (options : Options) {source : Source} {d : Bytes}
    (h : source.bytes? = some d) (hd : decode d = none) :
    ∃ sink, transfer layout options source .unlimited = (.error .invalidUtf8, sink) := by
  have hf : (Reader.readAll options source).fault = some .invalidUtf8 :=
    Reader.fault_of_undecodable #[] (.ofSource options source) h hd
  rw [transfer_unlimited, conclude, hf]
  exact ⟨_, rfl⟩

/-- **Bytes and text agree.** An unwrap of bytes succeeds just when they are the UTF-8 of a text. Then it
writes the statements of that text with a newline behind each, it has read as many lines as the text
has, and its counts are those of the statements of the lines of the text, taken call by call. -/
theorem unwrap_agrees (options : Options) {source : Source} {d : Bytes}
    (h : source.bytes? = some d) :
    ((∃ report sink, unwrap options source .unlimited = (.ok report, sink)) ↔ ∃ t, encode t = d) ∧
      ∀ t, encode t = d → ∃ report sink,
        unwrap options source .unlimited = (.ok report, sink) ∧
          sink.contents = encode (ofLines (statementsOfText options t)) ∧
          report.linesRead = t.count '\n' + (if t.getLast?.all (· == '\n') then 0 else 1) ∧
          (Statements.ofLines options (lines t)).Gives (statementsOfText options t) report.counts := by
  have hok : ∀ t, encode t = d → ∃ report,
      unwrap options source .unlimited =
          (.ok report, Sink.unlimited.accept (encode (ofLines (statementsOfText options t)))) ∧
        report.linesRead = (lines t).length ∧ report.counts = (assemble options (lines t)).2 := by
    intro t ht
    have hs : source.text? = some t := by
      rw [Source.text?, h, Option.bind_some, ← ht, decode_encode]
    have hl : transferred .oneLine options t = statementsOfText options t :=
      List.flatMap_singleton' _
    rw [← hl]
    exact transfer_text .oneLine options hs
  refine ⟨⟨?_, ?_⟩, fun t ht => ?_⟩
  · rintro ⟨report, sink, hu⟩
    cases hd : decode d with
    | some t => exact ⟨t, encode_of_decode hd⟩
    | none =>
      obtain ⟨sink', he⟩ := transfer_undecodable .oneLine options h hd
      rw [unwrap, he] at hu
      cases hu
  · rintro ⟨t, ht⟩
    obtain ⟨report, hu, -⟩ := hok t ht
    exact ⟨report, _, hu⟩
  · obtain ⟨report, hu, hlines, hcounts⟩ := hok t ht
    refine ⟨report, _, hu, Sink.contents_accept rfl _, ?_, ?_⟩
    · rw [hlines, length_lines]
    · rw [hcounts]
      exact Statements.gives_assemble options (lines t)

/-- A read may end inside a character. -/
theorem unwrap_agrees_cut_character :
    (Source.ofAnswers [.bytes [0x52, 0xC3], .interrupted, .bytes [0xA9, 0x0D, 0x0A, 0x2B, 0x30]]).bytes? =
        some (encode "Ré\r\n+0".toList) ∧
      ∃ report sink,
        unwrap ⟨.hold, .nothing⟩
            (Source.ofAnswers [.bytes [0x52, 0xC3], .interrupted, .bytes [0xA9, 0x0D, 0x0A, 0x2B, 0x30]])
            .unlimited = (.ok report, sink) ∧
          sink.contents = encode "Ré 0\n".toList ∧ report.linesRead = 2 ∧
          (Statements.ofLines ⟨.hold, .nothing⟩ ["Ré".toList, "+0".toList]).Gives ["Ré 0".toList]
            report.counts :=
  ⟨by decide, (unwrap_agrees ⟨.hold, .nothing⟩ (by decide)).2 "Ré\r\n+0".toList rfl⟩

end SpiceDeck
