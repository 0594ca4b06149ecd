import Mathlib.Data.Stream.Init
import Mathlib.Logic.Relation
import SpiceDeck.Proofs.Device.Delivery

/-!
# What a feed does by events

The answers of a source are flattened to events: bytes, failures, and ends. `segments` cuts the
events at newlines, failures and ends, and `replies` says what the calls of a feed give on the
segments. A read takes the front of the events (`fill_brings`), a line takes the first segment
(`readLineFrom_takes`), a call takes the segments up to one that it replies to (`replies_next`), and
so the calls of a feed depend on the events alone, not on how the answers pack them.
-/

namespace SpiceDeck

inductive Event
  | byte (b : UInt8)
  | failure (fault : Fault)
  /-- It is the end, at least for now. -/
  | stop

/-- A read that was interrupted is no event. -/
def Answer.events : Answer → List Event
  | .bytes [] => [.stop]
  | .bytes data => data.map .byte
  | .failure fault => [.failure fault]
  | .interrupted => []

def eventsOf (answers : List Answer) : List Event := answers.flatMap Answer.events

theorem Answer.events_bytes {data : Bytes} (h : data ≠ []) :
    (Answer.bytes data).events = data.map .byte := by
  cases data with
  | nil => exact absurd rfl h
  | cons b bs => rfl

theorem eventsOf_cons (answer : Answer) (rest : List Answer) :
    eventsOf (answer :: rest) = answer.events ++ eventsOf rest := List.flatMap_cons

theorem eventsOf_append (l r : List Answer) : eventsOf (l ++ r) = eventsOf l ++ eventsOf r :=
  List.flatMap_append

/-- What is still to come; behind it the end repeats for ever. -/
def Source.events (s : Source) : List Event := s.buffered.map .byte ++ eventsOf s.answers

/-! ## Pieces -/

inductive Segment
  | line (data : Bytes)
  | failure (fault : Fault)
  | stop

/-- Cuts events behind each newline; `taken` is what the line has so far. A failure loses it, an end
makes a line of it. -/
def segments (taken : Bytes) : List Event → List Segment
  | [] => if taken = [] then [] else [.line taken]
  | .byte b :: es =>
    if b = Source.newline then .line (taken ++ [b]) :: segments [] es
    else segments (taken ++ [b]) es
  | .failure fault :: es => .failure fault :: segments [] es
  | .stop :: es => (if taken = [] then .stop else .line taken) :: segments [] es

theorem segments_bytes {l : Bytes} (h : Source.newline ∉ l) (taken : Bytes) (es : List Event) :
    segments taken (l.map .byte ++ es) = segments (taken ++ l) es := by
  induction l generalizing taken with
  | nil => simp
  | cons b l ih =>
    have hb : b ≠ Source.newline := fun hb => h (by simp [hb])
    have hl : Source.newline ∉ l := fun hl => h (List.mem_cons_of_mem b hl)
    rw [List.map_cons, List.cons_append, segments, if_neg hb, ih hl]
    simp

theorem segments_newline (taken : Bytes) (es : List Event) :
    segments taken (.byte Source.newline :: es) =
      .line (taken ++ [Source.newline]) :: segments [] es := by
  rw [segments, if_pos rfl]

/-! ## Replies -/

/-- What one call of a feed gives, and the lines read well by then. -/
structure Reply where
  item : Except Fault (Option Text)
  linesRead : Nat
  deriving DecidableEq

/-- The replies on segments, when `read` lines have been read well. Behind the last one it is the end
for ever. -/
def replies (read : Nat) : List Segment → Stream' Reply
  | [] => Stream'.const ⟨.ok none, read⟩
  | .failure fault :: gs => Stream'.cons ⟨.error fault, read⟩ (replies read gs)
  | .stop :: gs => Stream'.cons ⟨.ok none, read⟩ (replies read gs)
  | .line data :: gs =>
    match Utf8.decode data with
    | none => Stream'.cons ⟨.error .invalidUtf8, read⟩ (replies read gs)
    | some text =>
      if Text.trim text = [] then replies (read + 1) gs
      else Stream'.cons ⟨.ok (some (Text.trim text)), read + 1⟩ (replies (read + 1) gs)

/-! ## Reads -/

namespace Source

/-- What a read gives, the events before it and those behind it. -/
inductive Brings : Except Fault Bytes → List Event → List Event → Prop
  | failure (fault : Fault) (es : List Event) : Brings (.error fault) (.failure fault :: es) es
  | stop (es : List Event) : Brings (.ok []) (.stop :: es) es
  | ended : Brings (.ok []) [] []
  | bytes {data : Bytes} (h : data ≠ []) (es : List Event) :
    Brings (.ok data) (data.map .byte ++ es) es

theorem readAnswer_brings {n : Nat} (hn : 0 < n) (answers : List Answer) :
    Brings (readAnswer n answers).1 (eventsOf answers) (eventsOf (readAnswer n answers).2) := by
  fun_induction readAnswer n answers with
  | case1 => exact .ended
  | case2 rest ih => exact ih
  | case3 fault rest => exact .failure fault _
  | case4 data rest =>
    by_cases h0 : data = []
    · subst h0
      simp only [List.take_nil, List.drop_nil]
      exact .stop _
    · have ht : data.take n ≠ [] := by
        intro ht
        rw [List.take_eq_nil_iff] at ht
        rcases ht with ht | ht
        · omega
        · exact h0 ht
      rw [eventsOf_cons, Answer.events_bytes h0]
      cases hd : data.drop n with
      | nil =>
        rw [List.take_of_length_le (List.drop_eq_nil_iff.mp hd)]
        exact .bytes h0 _
      | cons b bs =>
        -- what is over the capacity stays in front as an answer of its own, and brings no end
        have hcut : data = data.take n ++ b :: bs := by rw [← hd, List.take_append_drop]
        have : data.map Event.byte ++ eventsOf rest =
            (data.take n).map .byte ++ eventsOf (.bytes (b :: bs) :: rest) := by
          rw [eventsOf_cons, ← List.append_assoc, Answer.events_bytes (List.cons_ne_nil b bs),
            ← List.map_append, ← hcut]
        rw [this]
        exact .bytes ht _

theorem fill_brings {s s' : Source} {answer : Except Fault Bytes} (h : s.fill = (answer, s')) :
    Brings answer s.events (eventsOf s'.answers) ∧ s'.buffered = answer.toOption.getD [] := by
  unfold fill at h
  split at h
  · rename_i hb
    obtain ⟨rfl, rfl⟩ := Prod.mk.inj h
    rw [events, hb]
    exact ⟨readAnswer_brings s.capacity_pos s.answers, rfl⟩
  · rename_i hb
    cases h
    exact ⟨.bytes hb _, rfl⟩

/-! ## Lines -/

/-- What a reading of a line gives, the segments before it and those behind it. -/
inductive Takes : Except Fault Bytes → List Segment → List Segment → Prop
  | failure (fault : Fault) (gs : List Segment) : Takes (.error fault) (.failure fault :: gs) gs
  | stop (gs : List Segment) : Takes (.ok []) (.stop :: gs) gs
  | ended : Takes (.ok []) [] []
  | line {data : Bytes} (h : data ≠ []) (gs : List Segment) : Takes (.ok data) (.line data :: gs) gs

theorem events_of_brings {b : UInt8} {bs : Bytes} {es es' : List Event}
    (h : Brings (.ok (b :: bs)) es es') : es = (b :: bs).map .byte ++ es' := by
  cases h with
  | bytes => rfl

theorem takes_of_failure {fault : Fault} {es es' : List Event} (h : Brings (.error fault) es es')
    (taken : Bytes) : Takes (.error fault) (segments taken es) (segments [] es') := by
  cases h with
  | failure => exact .failure _ _

theorem takes_of_end {es es' : List Event} (h : Brings (.ok []) es es') (taken : Bytes) :
    Takes (.ok taken) (segments taken es) (segments [] es') := by
  by_cases ht : taken = []
  · subst ht
    cases h with
    | stop => exact .stop _
    | ended => exact .ended
    | bytes h => exact absurd rfl h
  · cases h with
    | stop =>
      rw [segments, if_neg ht]
      exact .line ht _
    | ended =>
      rw [segments, if_neg ht]
      exact .line ht _
    | bytes h => exact absurd rfl h

/-- **One line.** Whatever the source, a reading takes the first segment of its events. -/
theorem readLineFrom_takes (taken : Bytes) (s : Source) :
    Takes (readLineFrom taken s).1 (segments taken s.events)
      (segments [] (readLineFrom taken s).2.events) := by
  -- along the reads of the line: one without a newline puts its bytes behind what is taken
  fun_induction readLineFrom taken s with
  | case1 taken s fault s' hf =>
    obtain ⟨hr, hb⟩ := fill_brings hf
    rw [show s'.events = eventsOf s'.answers by rw [events, hb]; rfl]
    exact takes_of_failure hr taken
  | case2 taken s s' hf =>
    obtain ⟨hr, hb⟩ := fill_brings hf
    rw [show s'.events = eventsOf s'.answers by rw [events, hb]; rfl]
    exact takes_of_end hr taken
  | case3 taken s b bs s' hf c more hd =>
    obtain ⟨hr, -⟩ := fill_brings hf
    have he : s.events = ((b :: bs).takeWhile (· != newline)).map .byte ++
        .byte newline :: (more.map .byte ++ eventsOf s'.answers) := by
      rw [events_of_brings hr, ← List.cons_append, ← List.map_cons, ← List.append_assoc,
        ← List.map_append, ← eq_of_dropWhile_cons hd]
    rw [he, segments_bytes (newline_not_mem_takeWhile _), segments_newline]
    exact .line (by simp) _
  | case4 taken s b bs s' hf hd ih =>
    obtain ⟨hr, -⟩ := fill_brings hf
    rw [events_of_brings hr, segments_bytes (newline_not_mem_of_dropWhile hd)]
    exact ih

theorem readLine_takes {s s' : Source} {line : Except Fault Bytes} (h : s.readLine = (line, s')) :
    Takes line (segments [] s.events) (segments [] s'.events) := by
  have := readLineFrom_takes [] s
  rwa [show readLineFrom [] s = (line, s') from h] at this

end Source

/-! ## Calls -/

section
variable {gs gs' : List Segment}

theorem replies_of_failure {fault : Fault} (h : Source.Takes (.error fault) gs gs') (read : Nat) :
    replies read gs = Stream'.cons ⟨.error fault, read⟩ (replies read gs') := by
  cases h with
  | failure => rfl

theorem replies_of_end (h : Source.Takes (.ok []) gs gs') (read : Nat) :
    replies read gs = Stream'.cons ⟨.ok none, read⟩ (replies read gs') := by
  cases h with
  | stop => rfl
  | ended => exact Stream'.const_eq _
  | line hne => exact absurd rfl hne

theorem segments_of_line {b : UInt8} {bs : Bytes} (h : Source.Takes (.ok (b :: bs)) gs gs') :
    gs = .line (b :: bs) :: gs' := by
  cases h with
  | line => rfl

end

namespace LineFeed

/-- What call after call gives. -/
def calls (f : LineFeed) : Stream' Reply :=
  Stream'.corec (fun f => ⟨f.next.1, f.next.2.linesRead⟩) (fun f => f.next.2) f

theorem calls_eq (f : LineFeed) :
    f.calls = Stream'.cons ⟨f.next.1, f.next.2.linesRead⟩ f.next.2.calls :=
  Stream'.corec_eq ..

/-- **One call.** A feed gives the first reply, and the others are those of the feed it leaves. -/
theorem replies_next (f : LineFeed) :
    replies f.linesRead (segments [] f.source.events) =
      Stream'.cons ⟨f.next.1, f.next.2.linesRead⟩
        (replies f.next.2.linesRead (segments [] f.next.2.source.events)) := by
  fun_induction next f with
  | case1 f fault source h => exact replies_of_failure (Source.readLine_takes h) f.linesRead
  | case2 f source h => exact replies_of_end (Source.readLine_takes h) f.linesRead
  | case3 f b bs source h hd =>
    rw [segments_of_line (Source.readLine_takes h)]
    simp only [replies, hd]
  | case4 f b bs source h text hd feed line hb ih =>
    rw [segments_of_line (Source.readLine_takes h), ← ih]
    simp only [replies, hd]
    rw [if_pos (List.isEmpty_iff.mp hb)]
  | case5 f b bs source h text hd feed line hb =>
    rw [segments_of_line (Source.readLine_takes h)]
    simp only [replies, hd]
    rw [if_neg fun he => hb (List.isEmpty_iff.mpr he)]

theorem calls_eq_replies (f : LineFeed) :
    f.calls = replies f.linesRead (segments [] f.source.events) := by
  -- a call may take many segments, so it is the feeds that are followed and not the segments
  refine Stream'.eq_of_bisim
    (fun s r => ∃ f : LineFeed, s = f.calls ∧ r = replies f.linesRead (segments [] f.source.events))
    ?_ ⟨f, rfl, rfl⟩
  rintro _ _ ⟨f, rfl, rfl⟩
  rw [calls_eq, replies_next]
  exact ⟨rfl, f.next.2, rfl, rfl⟩

end LineFeed

/-! ## Packing -/

/-- One data answer instead of two, or a read that was interrupted, put in. -/
inductive Repacked : List Answer → List Answer → Prop
  | split {d e : Bytes} (hd : d ≠ []) (he : e ≠ []) (before after : List Answer) :
    Repacked (before ++ .bytes (d ++ e) :: after) (before ++ .bytes d :: .bytes e :: after)
  | interrupt (before after : List Answer) :
    Repacked (before ++ after) (before ++ .interrupted :: after)

theorem Repacked.eventsOf_eq {l r : List Answer} (h : Repacked l r) : eventsOf l = eventsOf r := by
  cases h with
  | split hd he before after =>
    rw [eventsOf_append, eventsOf_append, eventsOf_cons, eventsOf_cons, eventsOf_cons,
      Answer.events_bytes hd, Answer.events_bytes he, Answer.events_bytes (by simp [hd]),
      List.map_append, List.append_assoc]
  | interrupt before after =>
    rw [eventsOf_append, eventsOf_append, eventsOf_cons]
    rfl

theorem eventsOf_eq_of_repacked {l r : List Answer} (h : Relation.EqvGen Repacked l r) :
    eventsOf l = eventsOf r := by
  induction h with
  | rel l r h => exact h.eventsOf_eq
  | refl l => rfl
  | symm l r _ ih => exact ih.symm
  | trans l m r _ _ ih₁ ih₂ => exact ih₁.trans ih₂

/-- **A feed answers by events.** Call after call, a feed gives the replies to the segments that the
events of its source are cut into, each with the lines read so far. So the answers may be split,
merged and interrupted, and the capacity may be any other, and no call gives anything else. -/
theorem calls_by_events (source : Source) :
    (LineFeed.ofSource source).calls = replies 0 (segments [] source.events) ∧
      ∀ other : Source, other.buffered = source.buffered →
        Relation.EqvGen Repacked source.answers other.answers →
        (LineFeed.ofSource other).calls = (LineFeed.ofSource source).calls := by
  refine ⟨LineFeed.calls_eq_replies _, ?_⟩
  intro other hb hp
  rw [LineFeed.calls_eq_replies, LineFeed.calls_eq_replies]
  simp only [LineFeed.ofSource, Source.events, hb, eventsOf_eq_of_repacked hp]

/-- A character is cut between two answers, a read is interrupted, another fails in a line, a line
is no UTF-8, and an end comes in a line. Merged, and read one byte at a time, it is all the same. -/
theorem calls_by_events_cut_character :
    Relation.EqvGen Repacked
        [.bytes [0xC3], .interrupted, .bytes [0xA9, 0x0A, 0x78], .failure (.device "Other" "boom"),
          .bytes [0xFF, 0x0A, 0x79], .bytes []]
        [.bytes [0xC3, 0xA9, 0x0A, 0x78], .failure (.device "Other" "boom"),
          .bytes [0xFF, 0x0A, 0x79], .bytes []] ∧
      (LineFeed.ofSource
          { answers := [.bytes [0xC3, 0xA9, 0x0A, 0x78], .failure (.device "Other" "boom"),
              .bytes [0xFF, 0x0A, 0x79], .bytes []]
            capacity := 1 }).calls =
        (LineFeed.ofSource (.ofAnswers
          [.bytes [0xC3], .interrupted, .bytes [0xA9, 0x0A, 0x78],
            .failure (.device "Other" "boom"), .bytes [0xFF, 0x0A, 0x79], .bytes []])).calls ∧
      (LineFeed.ofSource (.ofAnswers
          [.bytes [0xC3], .interrupted, .bytes [0xA9, 0x0A, 0x78],
            .failure (.device "Other" "boom"), .bytes [0xFF, 0x0A, 0x79], .bytes []])).calls.take 6 =
        [⟨.ok (some ['\u00e9']), 1⟩, ⟨.error (.device "Other" "boom"), 1⟩, ⟨.error .invalidUtf8, 1⟩,
          ⟨.ok (some ['y']), 2⟩, ⟨.ok none, 2⟩, ⟨.ok none, 2⟩] := by
  have hp := Relation.EqvGen.trans _ _ _
    (.symm _ _ (.rel _ _ (.interrupt [.bytes [0xC3]] _)))
    (.symm _ _ (.rel _ _ (Repacked.split (d := [0xC3]) (e := [0xA9, 0x0A, 0x78]) (by simp) (by simp)
      [] [.failure (.device "Other" "boom"), .bytes [0xFF, 0x0A, 0x79], .bytes []])))
  refine ⟨hp, (calls_by_events _).2 _ rfl hp, ?_⟩
  rw [(calls_by_events _).1]
  decide +kernel

end SpiceDeck
