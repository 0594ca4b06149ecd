import SpiceDeck.Deck.Transfer
import SpiceDeck.Proofs.Device.Delivery
import SpiceDeck.Proofs.Statement.Run

/-!
# Transfers that meet no fault

A source that brings a text is read into the statements of that text, and a sink without limit takes
their lines with a newline behind each (`transfer_text`).
-/

namespace SpiceDeck

open Text Utf8

/-! ## Reading -/

theorem Reader.collect_text {t : Text} {r : Reader} (h : r.feed.source.bytes? = some (encode t))
    (done : Array Text) :
    collect done r =
      ⟨(Assembly.collect done r.assembly (trimmedLines (lines t))).1, none,
        (Assembly.collect done r.assembly (trimmedLines (lines t))).2.counts,
          r.feed.linesRead + (lines t).length⟩ := by
  induction hl : trimmedLines (lines t) generalizing t r done with
  | nil =>
    obtain ⟨f, u, hn, -, -, hc, hu⟩ := LineFeed.next_text h
    obtain rfl := hu hl
    rw [hl, List.head?_nil] at hn
    rw [lines_nil] at hc
    rw [collect]
    split
    · rename_i h'; rw [hn] at h'; cases h'
    · rename_i h'
      rw [hn] at h'
      cases h'
      rw [← hc]
      rfl
    · rename_i h'; rw [hn] at h'; cases h'
  | cons l ls ih =>
    obtain ⟨f, u, hn, hb, ht, hc, -⟩ := LineFeed.next_text h
    rw [hl, List.head?_cons] at hn
    rw [hl, List.tail_cons] at ht
    rw [collect]
    split
    · rename_i h'; rw [hn] at h'; cases h'
    · rename_i h'; rw [hn] at h'; cases h'
    · rename_i h'
      rw [hn] at h'
      cases h'
      have ih := @ih u { r with feed := f, assembly := (r.assembly.push l).drain.2 } hb
      refine (ih _ ht).trans ?_
      rw [← hc]
      rfl

theorem Reader.readAll_text (options : Options) {source : Source} {t : Text}
    (h : source.text? = some t) :
    readAll options source =
      ⟨(statementsOfText options t).toArray, none, (assemble options (lines t)).2,
        (lines t).length⟩ := by
  have hb : (ofSource options source).feed.source.bytes? = some (encode t) :=
    Source.bytes?_of_text? h
  rw [readAll, collect_text hb, Assembly.collect_eq, Assembly.pushAll_trimmedLines]
  simp [statementsOfText, statements, Assembly.assemble_eq, ofSource, LineFeed.ofSource]

/-! ## Writing -/

theorem Sink.accept_nil {s : Sink} (h : s.limit = none) : s.accept [] = s := by
  have ha : s.taken ++ ([] : Bytes) = s.taken := Array.ext' (by simp)
  rw [accept, h]
  simp only [ha, ← h]

theorem Sink.accept_accept {s : Sink} (h : s.limit = none) (d e : Bytes) :
    (s.accept d).accept e = s.accept (d ++ e) := by
  have ha : s.taken ++ d ++ e = s.taken ++ (d ++ e) := Array.ext' (by simp)
  simp [accept, h, ha]

theorem Sink.limit_accept (s : Sink) (d : Bytes) : (s.accept d).limit = s.limit := by
  unfold accept
  cases s.limit <;> rfl

theorem Sink.write_unlimited {s : Sink} (h : s.limit = none) (d : Bytes) :
    s.write d = (none, s.accept d) := by
  simp [write, fits, h]

theorem Sink.contents_accept {s : Sink} (h : s.limit = none) (d : Bytes) :
    (s.accept d).contents = s.contents ++ d := by
  simp [accept, contents, h]

theorem Sink.contents_unlimited_accept (d : Bytes) : (unlimited.accept d).contents = d :=
  contents_accept rfl d

/-- The counters after `n` statements more, of which these are the physical lines. -/
def Metrics.plus (m : Metrics) (layout : Layout) (n : Nat) (ls : List Text) : Metrics where
  logical := m.logical + n
  physical := m.physical + ls.length
  overlong := m.overlong + ls.countP layout.overlong
  bytes := m.bytes + (encode (ofLines ls)).length

theorem Metrics.plus_nil (m : Metrics) (layout : Layout) : m.plus layout 0 [] = m := rfl

theorem Metrics.plus_plus (m : Metrics) (layout : Layout) (n k : Nat) (ls ms : List Text) :
    (m.plus layout n ls).plus layout k ms = m.plus layout (n + k) (ls ++ ms) := by
  simp [plus, ofLines_append, encode_append, Nat.add_assoc]

namespace Writer

/-- The writer after `n` statements more that a sink without limit has taken in these lines. -/
def wrote (w : Writer) (n : Nat) (ls : List Text) : Writer :=
  { w with
    sink := w.sink.accept (encode (ofLines ls))
    metrics := w.metrics.plus w.layout n ls }

section
variable {w : Writer} (h : w.sink.limit = none)
include h

theorem limit_wrote (n : Nat) (ls : List Text) : (w.wrote n ls).sink.limit = none := by
  rw [wrote, Sink.limit_accept, h]

theorem wrote_nil : w.wrote 0 [] = w := by
  rw [wrote, ofLines_nil, encode_nil, Sink.accept_nil h, Metrics.plus_nil]

theorem wrote_wrote (n k : Nat) (ls ms : List Text) :
    (w.wrote n ls).wrote k ms = w.wrote (n + k) (ls ++ ms) := by
  simp only [wrote, Sink.accept_accept h, Metrics.plus_plus, ofLines_append, encode_append]

theorem writeLine_unlimited (line : Text) :
    (w.noteWidth line).writeLine line = (none, w.wrote 0 [line]) := by
  have hs : (w.noteWidth line).sink = w.sink := by
    unfold noteWidth
    split <;> rfl
  have hl : (w.sink.accept (encode line)).limit = none := by rw [Sink.limit_accept, h]
  have ht : (w.sink.accept (encode line)).accept newline =
      w.sink.accept (encode (ofLines [line])) := by
    rw [Sink.accept_accept h, ofLines_cons, ofLines_nil, encode_append, encode_newline]
    rfl
  rw [writeLine, hs]
  simp only [Sink.write_unlimited h, Sink.write_unlimited hl, ht]
  unfold noteWidth
  by_cases ho : w.layout.overlong line = true
  · simp [ho, wrote, Metrics.plus, countLine, ofLines, encode_append, encode_newline]
  · simp [ho, wrote, Metrics.plus, countLine, ofLines, encode_append, encode_newline]

theorem writeLines_unlimited (ls : List Text) : w.writeLines ls = (none, w.wrote 0 ls) := by
  induction ls generalizing w with
  | nil => rw [writeLines, wrote_nil h]
  | cons l ls ih =>
    simp only [writeLines, writeLine_unlimited h]
    rw [ih (limit_wrote h 0 [l]), wrote_wrote h]
    rfl

theorem write_unlimited (s : Text) : w.write s = (none, w.wrote 1 (w.layout.lines s)) := by
  unfold write
  rw [writeLines_unlimited (by exact h)]
  simp [wrote, Metrics.plus]

theorem writeAll_unlimited (ss : List Text) :
    w.writeAll ss = (none, w.wrote ss.length (ss.flatMap w.layout.lines)) := by
  induction ss generalizing w with
  | nil =>
    rw [writeAll]
    exact congrArg _ (wrote_nil h).symm
  | cons s ss ih =>
    simp only [writeAll, write_unlimited h]
    rw [ih (limit_wrote h 1 _), wrote_wrote h, List.flatMap_cons, List.length_cons, Nat.add_comm 1]
    rfl

end

end Writer

/-! ## How a transfer ends -/

/-- The result of a transfer that has written all it had to write. -/
def conclude (c : Reader.Contents) (w : Writer) : Except Fault Report :=
  match c.fault with
  | some fault => .error fault
  | none =>
    match w.finish with
    | some fault => .error fault
    | none => .ok ⟨c.linesRead, c.counts, w.metrics⟩

section
variable {layout : Layout} {options : Options} {source : Source} {sink : Sink} {w : Writer}

theorem transfer_written
    (h : (Writer.ofSink layout sink).writeAll (Reader.readAll options source).statements.toList =
      (none, w)) :
    transfer layout options source sink = (conclude (Reader.readAll options source) w, w.sink) := by
  unfold transfer conclude
  simp only [h]
  cases (Reader.readAll options source).fault with
  | some fault => rfl
  | none => cases w.finish <;> rfl

theorem transfer_refused {fault : Fault}
    (h : (Writer.ofSink layout sink).writeAll (Reader.readAll options source).statements.toList =
      (some fault, w)) :
    transfer layout options source sink = (.error fault, w.sink) := by
  unfold transfer
  simp only [h]

end

/-- A sink without limit takes all that there is to write, and only reading can fail. -/
theorem transfer_unlimited (layout : Layout) (options : Options) (source : Source) :
    let c := Reader.readAll options source
    let w := (Writer.ofSink layout .unlimited).wrote c.statements.toList.length
      (c.statements.toList.flatMap layout.lines)
    transfer layout options source .unlimited = (conclude c w, w.sink) :=
  transfer_written (Writer.writeAll_unlimited rfl _)

/-! ## From text to text -/

/-- The lines that a transfer makes of a text. -/
def transferred (layout : Layout) (options : Options) (t : Text) : List Text :=
  (statementsOfText options t).flatMap layout.lines

theorem transferred_oneLine (options : Options) (t : Text) :
    transferred .oneLine options t = statementsOfText options t :=
  List.flatMap_singleton' _

/-- The report of a transfer that has made them. -/
def reportOf (layout : Layout) (options : Options) (t : Text) : Report where
  linesRead := (lines t).length
  counts := (assemble options (lines t)).2
  metrics := Metrics.plus {} layout (statementsOfText options t).length (transferred layout options t)

/-- **A transfer without fault.** -/
theorem transfer_eq (layout : Layout) (options : Options) {source : Source} {t : Text}
    (h : source.text? = some t) :
    transfer layout options source .unlimited =
      (.ok (reportOf layout options t),
        Sink.unlimited.accept (encode (ofLines (transferred layout options t)))) := by
  rw [transfer_unlimited, Reader.readAll_text options h]
  rfl

theorem transfer_text (layout : Layout) (options : Options) {source : Source} {t : Text}
    (h : source.text? = some t) :
    ∃ report, transfer layout options source .unlimited =
        (.ok report, Sink.unlimited.accept (encode (ofLines (transferred layout options t)))) ∧
      report.linesRead = (lines t).length ∧ report.counts = (assemble options (lines t)).2 :=
  ⟨_, transfer_eq layout options h, rfl, rfl⟩

def reflowed (width : LineWidth) (options : Options) (t : Text) : List Text :=
  transferred (.wrapped width) options t

theorem reflowed_eq (width : LineWidth) (options : Options) (t : Text) :
    reflowed width options t = (statementsOfText options t).flatMap (wrapStatement width) := rfl

/-- The text that a reflow of the source writes to a sink without limit. -/
def ReflowsTo (width : LineWidth) (options : Options) (source : Source) (written : Text) : Prop :=
  ∃ report sink, reflow width options source .unlimited = (.ok report, sink) ∧
    decode sink.contents = some written

theorem ReflowsTo.unique {width : LineWidth} {options : Options} {source : Source} {t u : Text}
    (ht : ReflowsTo width options source t) (hu : ReflowsTo width options source u) : t = u := by
  obtain ⟨r, s, hr, hs⟩ := ht
  obtain ⟨r', s', hr', hs'⟩ := hu
  obtain ⟨-, rfl⟩ := Prod.mk.inj (hr.symm.trans hr')
  exact Option.some.inj (hs.symm.trans hs')

theorem reflowsTo_ofLines (width : LineWidth) (options : Options) {source : Source} {t : Text}
    (h : source.text? = some t) :
    ReflowsTo width options source (ofLines (reflowed width options t)) := by
  obtain ⟨report, hr, -⟩ := transfer_text (.wrapped width) options h
  refine ⟨report, _, hr, ?_⟩
  rw [Sink.contents_accept rfl]
  exact decode_encode _

end SpiceDeck
