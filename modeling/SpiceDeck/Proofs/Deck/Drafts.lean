import SpiceDeck.Deck.Draft
import SpiceDeck.Proofs.Deck.Transfer
import SpiceDeck.Proofs.Statement.Beginnings
import SpiceDeck.Proofs.Statement.Counting
import SpiceDeck.Proofs.Statement.Iteration

/-!
# Drafts that are read back

The lines of a draft lose a carriage return at their end when its text is cut into lines again, and a
draft without lines gets an empty one. An assembly does not see the difference, so a draft is read back
as it was built, whatever its lines were given as texts (`draft_read_back`).
-/

namespace SpiceDeck

open Text Utf8

/-! ## One line -/

namespace DraftLine

/-- The text that a line was given. -/
def given : DraftLine → Text
  | statement t | continuation t | commentContinuation t | comment t => t
  | blank => []

/-- Whether a line goes on with the statement before it. Of a line that was meant to begin one the text
decides. -/
def continues : DraftLine → Bool
  | statement t => continuesStatement (trim t)
  | continuation _ | commentContinuation _ => true
  | comment _ | blank => false

theorem newline_not_mem_render {l : DraftLine} (h : '\n' ∉ l.given) : '\n' ∉ l.render := by
  cases l with
  | statement t => exact h
  | continuation t => simpa [given, render, Marker.indent, Marker.sign] using h
  | commentContinuation t =>
    simpa [given, render, Marker.indent, Marker.sign, Marker.commentSign] using h
  | comment t => simpa [given, render, Marker.commentSign] using h
  | blank => exact List.not_mem_nil

theorem continuesStatement_trim_indent (m : Marker) (t : Text) :
    continuesStatement (trim (m.indent ++ t)) = true := by
  have hm : trim (m.indent ++ t) = m.sign ++ trimRight (' ' :: t) := by
    rw [Marker.indent, List.append_assoc, List.singleton_append]
    cases m <;> exact trim_append_word (by simp [IsWord, Marker.sign, Marker.commentSign]; decide) _
  rw [hm]
  cases m <;> simp [continuesStatement, Marker.sign, List.isPrefixOf]

/-- The space behind the comment sign keeps what follows from being taken for a marker. -/
theorem continuesStatement_trim_comment (t : Text) :
    continuesStatement (trim (Marker.commentSign :: ' ' :: t)) = false := by
  have hw : IsWord [Marker.commentSign] := by simp [IsWord, Marker.commentSign]; decide
  have htrim : trim (Marker.commentSign :: ' ' :: t) =
      [Marker.commentSign] ++ trimRight (' ' :: t) := trim_append_word hw _
  have hhead : ∀ b ∈ (trimRight (' ' :: t)).head?, b ≠ '+' := by
    intro b hb
    obtain ⟨r, hr⟩ := trimRight_prefix (' ' :: t)
    obtain ⟨s, hs⟩ := List.head?_eq_some_iff.mp (Option.mem_def.mp hb)
    rw [hs, List.cons_append] at hr
    rw [(List.cons.inj hr).1]
    decide
  rw [htrim, continuesStatement_append hw.1 hhead]
  rfl

theorem continuesStatement_trim_render (l : DraftLine) :
    continuesStatement (trim l.render) = l.continues := by
  cases l with
  | statement t => rfl
  | continuation t => exact continuesStatement_trim_indent .plain t
  | commentContinuation t => exact continuesStatement_trim_indent .comment t
  | comment t => exact continuesStatement_trim_comment t
  | blank => rfl

end DraftLine

/-! ## What an assembly counts -/

theorem countP_trimmedLines (ls : List Text) :
    (trimmedLines ls).countP continuesStatement = ls.countP fun l => continuesStatement (trim l) := by
  induction ls with
  | nil => rfl
  | cons l ls ih =>
    rw [trimmedLines_cons, List.countP_cons]
    by_cases hl : trim l = []
    · have hc : continuesStatement (trim l) = false := by
        rw [hl]
        rfl
      rw [if_pos hl, ih, if_neg (by simp [hc]), Nat.add_zero]
    · rw [if_neg hl, List.countP_cons, ih]

theorem continuation_push {a : Assembly} (hf : a.finished = false) (l : Text) :
    (a.push l).counts.continuation =
      a.counts.continuation + (continuesStatement (trim l)).toNat := by
  by_cases hl : trim l = []
  · rw [a.push_blank hl, hl]
    rfl
  rw [← a.push_trim l, a.push_eq_take hf ⟨trim_trim l, hl⟩]
  by_cases hc : continuesStatement (trim l) = true
  · rw [a.take_continuation hc, hc]
    rfl
  have hn : continuesStatement (trim l) = false := by simpa using hc
  rw [hn]
  by_cases hh : (a.continuing && a.options.comments == .hold && isCommentLine (trim l)) = true
  · rw [a.take_held hc hh]
    rfl
  · rw [a.take_start hc hh]
    rfl

/-! ## Whole drafts -/

namespace Draft

theorem joinLines_concat {ls : List Text} (h : ls ≠ []) : joinLines ls ++ ['\n'] = ofLines ls := by
  induction ls with
  | nil => exact absurd rfl h
  | cons l ls ih =>
    by_cases hls : ls = []
    · subst hls
      simp [joinLines, ofLines]
    · rw [joinLines, List.intercalate_cons_of_ne_nil hls, ofLines_cons, ← ih hls]
      simp [joinLines]

theorem trimmedLines_text {d : Draft} (h : ∀ l ∈ d, '\n' ∉ l.given) :
    trimmedLines (Text.lines d.text) = trimmedLines d.lines := by
  by_cases hd : d = []
  · subst hd
    rfl
  have hne : d.lines ≠ [] := by simpa [lines] using hd
  have hl : ∀ l ∈ d.lines, '\n' ∉ l := by
    intro l hl
    obtain ⟨line, hline, rfl⟩ := List.mem_map.mp hl
    exact DraftLine.newline_not_mem_render (h line hline)
  rw [text, joinLines_concat hne, trimmedLines_lines_ofLines hl]

theorem continuation_assemble (options : Options) (d : Draft) :
    (assemble options d.lines).2.continuation = d.countP DraftLine.continues := by
  rw [counts_assemble]
  show (trimmedLines d.lines).countP continuesStatement = _
  rw [countP_trimmedLines, lines, List.countP_map]
  congr
  funext l
  exact l.continuesStatement_trim_render

end Draft

/-- **Drafts are read back.** Take a draft whose lines were given texts without newline. The statements
that its lines give call by call are those of its text, and an unwrap of the bytes of its text writes
them, each on one line, with the same counts. Each line given as a continuation counts as one and no
comment does, whatever their texts. -/
theorem draft_read_back (options : Options) {d : Draft} (h : ∀ l ∈ d, '\n' ∉ l.given) :
    ∃ ss counts, (Statements.ofLines options d.lines).Gives ss counts ∧
      statementsOfText options d.text = ss ∧ (∀ s ∈ ss, '\n' ∉ s) ∧
      (∀ source : Source, source.bytes? = some (encode d.text) →
        ∃ report sink, unwrap options source .unlimited = (.ok report, sink) ∧
          sink.contents = encode (ofLines ss) ∧ report.counts = counts) ∧
      counts.continuation = d.countP DraftLine.continues ∧
      ∀ a : Assembly, a.finished = false → ∀ l ∈ d,
        (a.push l.render).counts.continuation = a.counts.continuation + l.continues.toNat := by
  have hsame : assemble options (lines d.text) = assemble options d.lines :=
    assemble_congr options (Draft.trimmedLines_text h)
  refine ⟨_, _, Statements.gives_assemble options d.lines, congrArg Prod.fst hsame, ?_, ?_,
    Draft.continuation_assemble options d, ?_⟩
  · rw [← hsame]
    exact newline_not_mem_statementsOfText options d.text
  · intro source hs
    obtain ⟨report, hu, -, hcounts⟩ := transfer_text .oneLine options (Source.text?_of_bytes? hs)
    refine ⟨report, _, hu, ?_, hcounts.trans (congrArg Prod.snd hsame)⟩
    rw [Sink.contents_unlimited_accept, transferred_oneLine, ← hsame]
    rfl
  · intro a hf l _
    rw [continuation_push hf, l.continuesStatement_trim_render]

/-- The comment is none of the continuations, though a plus sign is the first of its text, and the
statement is one. -/
theorem draft_read_back_signs :
    let d : Draft := [.comment "+ x\r".toList, .statement "+ odd".toList, .continuation "\r".toList,
      .blank, .commentContinuation "* y".toList]
    (∀ l ∈ d, '\n' ∉ l.given) ∧ d.text = "* + x\r\n+ odd\n+ \r\n\n*+ * y\n".toList ∧
      (Statements.ofLines ⟨.hold, .nothing⟩ d.lines).Gives ["* + x odd  y".toList] ⟨4, 3, 1, 0⟩ ∧
      statementsOfText ⟨.hold, .nothing⟩ d.text = ["* + x odd  y".toList] ∧
      (∀ source : Source, source.bytes? = some (encode d.text) →
        ∃ report sink, unwrap ⟨.hold, .nothing⟩ source .unlimited = (.ok report, sink) ∧
          sink.contents = encode "* + x odd  y\n".toList ∧ report.counts = ⟨4, 3, 1, 0⟩) ∧
      ∀ a : Assembly, a.finished = false → ∀ l ∈ d,
        (a.push l.render).counts.continuation = a.counts.continuation + l.continues.toNat := by
  intro d
  have hgiven : ∀ l ∈ d, '\n' ∉ l.given := by decide
  obtain ⟨ss, counts, hgives, htext, -, hunwrap, -, hpush⟩ :=
    draft_read_back ⟨.hold, .nothing⟩ hgiven
  obtain ⟨rfl, rfl⟩ : ss = ["* + x odd  y".toList] ∧ counts = ⟨4, 3, 1, 0⟩ :=
    Prod.mk.inj (hgives.eq_assemble.trans (by decide))
  exact ⟨hgiven, by decide, hgives, htext, hunwrap, hpush⟩

end SpiceDeck
