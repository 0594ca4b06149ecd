import SpiceDeck.Proofs.Deck.Transfer
import SpiceDeck.Proofs.Statement.Accounting

/-!
# Reading call by call

A reader can only give what follows from the lines up to the first stop of its feed, an end or a fault.
`toCome` says what that is; a call takes the first part of it away (`turn_next`), and reading all at
once gives the whole (`readAll_eq_toCome`). A fault costs the statement in flight and the comments that
wait for it, and nothing that was complete (`reading_stops_at_fault`).
-/

namespace SpiceDeck

open Text Utf8

/-! ## Up to a stop -/

/-- What a feed gives before the first call without a line, and how that call went. -/
structure Stop where
  lines : List Text
  fault : Option Fault
  linesRead : Nat

def Stop.cons (line : Text) (stop : Stop) : Stop := { stop with lines := line :: stop.lines }

def LineFeed.toStop (f : LineFeed) : Stop :=
  match _h : f.next with
  | (.error fault, feed) => ⟨[], some fault, feed.linesRead⟩
  | (.ok none, feed) => ⟨[], none, feed.linesRead⟩
  | (.ok (some line), feed) => feed.toStop.cons line
termination_by f.source.weight
decreasing_by all_goals exact next_weight _h

namespace LineFeed

section
variable {f f' : LineFeed}

theorem toStop_fault {fault : Fault} (h : f.next = (.error fault, f')) :
    f.toStop = ⟨[], some fault, f'.linesRead⟩ := by
  rw [toStop]
  split <;> rename_i h' <;> rw [h] at h' <;> cases h'
  rfl

theorem toStop_end (h : f.next = (.ok none, f')) : f.toStop = ⟨[], none, f'.linesRead⟩ := by
  rw [toStop]
  split <;> rename_i h' <;> rw [h] at h' <;> cases h'
  rfl

theorem toStop_line {line : Text} (h : f.next = (.ok (some line), f')) :
    f.toStop = f'.toStop.cons line := by
  rw [toStop]
  split <;> rename_i h' <;> rw [h] at h' <;> cases h'
  rfl

theorem isTrimmed_of_next {line : Text} (h : f.next = (.ok (some line), f')) : IsTrimmed line := by
  fun_induction next f with
  | case1 | case2 | case3 => cases h
  | case4 f b bs source hr text ht feed line' hb ih => exact ih h
  | case5 f b bs source hr text ht feed line' hb =>
    obtain ⟨h, -⟩ := Prod.mk.inj h
    obtain rfl : trim text = line := by simpa [line'] using h
    exact ⟨trim_trim text, by simpa [line'] using hb⟩

theorem isTrimmed_of_mem_toStop (f : LineFeed) : ∀ l ∈ f.toStop.lines, IsTrimmed l := by
  fun_induction toStop f with
  | case1 | case2 => simp
  | case3 f line feed hn ih =>
    intro l hl
    rcases List.mem_cons.mp hl with rfl | hl
    · exact isTrimmed_of_next hn
    · exact ih l hl

end

end LineFeed

namespace Assembly

/-- The assembly when its lines have stopped: ended, unless it was a fault that stopped them. -/
def atStop (a : Assembly) (stop : Stop) : Assembly :=
  match stop.fault with
  | none => (a.pushAll stop.lines).finish
  | some _ => a.pushAll stop.lines

theorem atStop_after (r : List Text) (a : Assembly) (stop : Stop) :
    (a.after r).atStop stop = (a.atStop stop).after r := by
  unfold atStop
  cases stop.fault with
  | none => simp only [pushAll_after, finish_after]
  | some fault => simp only [pushAll_after]

theorem atStop_cons (a : Assembly) (l : Text) (stop : Stop) :
    a.atStop (stop.cons l) = (a.push l).atStop stop := rfl

theorem after_of_pop {a b : Assembly} {s : Text} (h : a.pop = (some s, b)) : a = b.after [s] := by
  cases hr : a.ready with
  | nil => simp [pop, hr] at h
  | cons x rest =>
    simp only [pop, hr, Prod.mk.injEq, Option.some.injEq] at h
    obtain ⟨rfl, rfl⟩ := h
    simp only [after, List.singleton_append, ← hr]

theorem ready_of_pop {a b : Assembly} (h : a.pop = (none, b)) : a.ready = [] := by
  have hh := fst_pop a
  rw [h] at hh
  exact List.head?_eq_none_iff.mp hh.symm

end Assembly

/-! ## What is still to come -/

namespace Reader

def Contents.after (ss : List Text) (c : Contents) : Contents :=
  { c with statements := (ss ++ c.statements.toList).toArray }

def toCome (r : Reader) : Contents :=
  if r.assembly.finished then ⟨r.assembly.ready.toArray, none, r.counts, r.linesRead⟩
  else
    let stop := r.feed.toStop
    let a := r.assembly.atStop stop
    ⟨a.ready.toArray, stop.fault, a.counts, stop.linesRead⟩

/-- How a call leads from what was to come to what is to come now. -/
inductive Turn (r : Reader) : Option (Except Fault Text) × Reader → Prop
  | statement {s : Text} {r' : Reader} (reading : r'.failed = false)
      (toCome : r.toCome = r'.toCome.after [s]) : Turn r (some (.ok s), r')
  | fault {fault : Fault} {r' : Reader} (failed : r'.failed = true)
      (nothing : r.toCome.statements = #[]) (toCome : r.toCome.fault = some fault) :
      Turn r (some (.error fault), r')
  | done {r' : Reader} (reading : r'.failed = false)
      (toCome : r.toCome = ⟨#[], none, r'.counts, r'.linesRead⟩) (same : r'.toCome = r.toCome) :
      Turn r (none, r')

section
variable {feed : LineFeed} {a : Assembly} {failed : Bool}

theorem toCome_finished (hf : a.finished = true) :
    toCome ⟨feed, a, failed⟩ = ⟨a.ready.toArray, none, a.counts, feed.linesRead⟩ := by
  simp [toCome, hf, counts, linesRead]

theorem toCome_reading (hf : a.finished = false) :
    toCome ⟨feed, a, failed⟩ =
      ⟨(a.atStop feed.toStop).ready.toArray, feed.toStop.fault, (a.atStop feed.toStop).counts,
        feed.toStop.linesRead⟩ := by
  simp [toCome, hf]

theorem toCome_ofSource (options : Options) (source : Source) :
    let stop := (LineFeed.ofSource source).toStop
    let a := (Assembly.start options).atStop stop
    (ofSource options source).toCome = ⟨a.ready.toArray, stop.fault, a.counts, stop.linesRead⟩ :=
  toCome_reading rfl

theorem toCome_after (ss : List Text) :
    toCome ⟨feed, a.after ss, failed⟩ = (toCome ⟨feed, a, failed⟩).after ss := by
  by_cases hf : a.finished = true
  · rw [toCome_finished (a := a.after ss) hf, toCome_finished hf]
    simp [Contents.after, Assembly.after]
  · have hf : a.finished = false := by simpa using hf
    rw [toCome_reading (a := a.after ss) hf, toCome_reading hf, Assembly.atStop_after]
    simp [Contents.after, Assembly.after]

theorem toCome_push {feed' : LineFeed} {line : Text} (hf : a.finished = false)
    (hn : feed.next = (.ok (some line), feed')) :
    toCome ⟨feed, a, failed⟩ = toCome ⟨feed', a.push line, failed⟩ := by
  have hf' : (a.push line).finished = false := by rw [Assembly.finished_push, hf]
  rw [toCome_reading hf, toCome_reading hf', LineFeed.toStop_line hn, Assembly.atStop_cons]
  rfl

theorem toCome_end {feed' : LineFeed} (hf : a.finished = false)
    (hn : feed.next = (.ok none, feed')) :
    toCome ⟨feed, a, failed⟩ = toCome ⟨feed', a.finish, failed⟩ := by
  rw [toCome_reading hf, LineFeed.toStop_end hn, toCome_finished (Assembly.finished_finish a)]
  rfl

end

theorem Turn.congr {r q : Reader} (h : r.toCome = q.toCome) {x : Option (Except Fault Text) × Reader}
    (t : Turn q x) : Turn r x := by
  cases t with
  | statement reading hc => exact .statement reading (h.trans hc)
  | fault failed nothing hc => exact .fault failed (h ▸ nothing) (h ▸ hc)
  | done reading hc same => exact .done reading (h.trans hc) (same.trans h.symm)

theorem turn_pop {feed : LineFeed} {a : Assembly} (h : a.ready ≠ [] ∨ a.finished = true) :
    Turn ⟨feed, a, false⟩ (a.pop.1.map .ok, ⟨feed, a.pop.2, false⟩) := by
  cases hr : a.ready with
  | nil =>
    have hf : a.finished = true := h.resolve_left fun hne => hne hr
    rw [Assembly.pop_of_empty hr]
    exact .done rfl (by rw [toCome_finished hf, hr]; rfl) rfl
  | cons s rest =>
    obtain ⟨b, rfl, hp⟩ := Assembly.pop_of_ready hr
    rw [hp]
    exact .statement rfl (toCome_after [s])

/-- **One call.** -/
theorem turn_next (r : Reader) (h : r.failed = false) : Turn r r.next := by
  fun_induction next r with
  | case1 r h' => simp [h] at h'
  | case2 r h' s b hp =>
    obtain ⟨feed, a, failed⟩ := r
    obtain rfl : failed = false := h
    obtain rfl : a = b.after [s] := Assembly.after_of_pop hp
    exact .statement rfl (toCome_after [s])
  | case3 r h' b hp hf =>
    obtain ⟨feed, a, failed⟩ := r
    obtain rfl : failed = false := h
    have t : Turn ⟨feed, a, false⟩ (a.pop.1.map .ok, ⟨feed, a.pop.2, false⟩) := turn_pop (.inr hf)
    rw [Assembly.pop_of_empty (Assembly.ready_of_pop hp)] at t
    exact t
  | case4 r h' b hp hf fault feed' hn =>
    obtain ⟨feed, a, failed⟩ := r
    obtain rfl : failed = false := h
    have hf : a.finished = false := by simpa using hf
    have hr : a.ready = [] := Assembly.ready_of_pop hp
    have hc : toCome ⟨feed, a, false⟩ = ⟨#[], some fault, a.counts, feed'.linesRead⟩ := by
      rw [toCome_reading hf, LineFeed.toStop_fault hn]
      simp [Assembly.atStop, hr]
    exact .fault rfl (by rw [hc]) (by rw [hc])
  | case5 r h' b hp hf feed' hn s c hs =>
    obtain ⟨feed, a, failed⟩ := r
    obtain rfl : failed = false := h
    obtain rfl : a.finish.pop.1 = s := congrArg Prod.fst hs
    obtain rfl : a.finish.pop.2 = c := congrArg Prod.snd hs
    have hf : a.finished = false := by simpa using hf
    exact (turn_pop (.inr (Assembly.finished_finish a))).congr (toCome_end hf hn)
  | case6 r h' b hp hf line feed' hn ih =>
    obtain ⟨feed, a, failed⟩ := r
    obtain rfl : failed = false := h
    have hf : a.finished = false := by simpa using hf
    exact (ih rfl).congr (toCome_push hf hn)

/-! ## Call after call -/

/-- The reader after a number of calls. -/
def skip (r : Reader) : Nat → Reader
  | 0 => r
  | k + 1 => r.next.2.skip k

def results (r : Reader) : List (Except Fault Text) :=
  if r.failed then []
  else r.toCome.statements.toList.map .ok ++ r.toCome.fault.toList.map .error

theorem results_failed {r : Reader} (h : r.failed = true) : r.results = [] := if_pos h

theorem results_reading {r : Reader} (h : r.failed = false) :
    r.results = r.toCome.statements.toList.map .ok ++ r.toCome.fault.toList.map .error := by
  simp [results, h]

theorem results_next (r : Reader) :
    r.next.1 = r.results.head? ∧ r.next.2.results = r.results.tail := by
  by_cases h : r.failed = true
  · have hn : r.next = (none, r) := by
      rw [next]
      simp [h]
    simp [hn, results_failed h]
  have h : r.failed = false := by simpa using h
  have t := turn_next r h
  generalize r.next = x at t
  cases t with
  | statement reading hc => simp [results, h, reading, hc, Contents.after]
  | fault failed nothing hc => simp [results, h, failed, nothing, hc]
  | done reading hc same => simp [results, h, reading, same, hc]

theorem next_skip (r : Reader) (k : Nat) : (r.skip k).next.1 = r.results[k]? := by
  induction k generalizing r with
  | zero => rw [skip, (results_next r).1, List.head?_eq_getElem?]
  | succ k ih => rw [skip, ih, (results_next r).2, List.getElem?_tail]

/-! ## All at once -/

theorem Contents.after_after (s d : List Text) (c : Contents) :
    (c.after s).after d = c.after (d ++ s) := by
  simp [Contents.after]

theorem collect_eq_toCome (done : Array Text) (r : Reader) (h : r.assembly.finished = false)
    (hr : r.assembly.ready = []) : collect done r = r.toCome.after done.toList := by
  fun_induction collect done r with
  | case1 done r fault feed hn =>
    obtain ⟨feed', a, failed⟩ := r
    rw [toCome_reading h, LineFeed.toStop_fault hn]
    dsimp only at hr
    simp [Contents.after, Assembly.atStop, hr, counts]
  | case2 done r feed hn ss b hd =>
    obtain ⟨feed', a, failed⟩ := r
    obtain ⟨rfl, rfl⟩ := Prod.mk.inj hd.symm
    have hs : done ++ a.finish.ready = (done.toList ++ a.finish.ready).toArray :=
      Array.ext' (by simp)
    rw [toCome_end h hn, toCome_finished (Assembly.finished_finish a)]
    simp only [Contents.after, ← hs]
  | case3 done r line feed hn ss b hd ih =>
    obtain ⟨feed', a, failed⟩ := r
    obtain ⟨rfl, rfl⟩ := Prod.mk.inj hd.symm
    dsimp only at h
    have hf : (a.push line).finished = false := by rw [Assembly.finished_push, h]
    have hp : a.push line = { a.push line with ready := [] }.after (a.push line).ready := by
      simp [Assembly.after]
    rw [ih hf rfl, toCome_push h hn, hp, toCome_after, Contents.after_after]
    simp [Assembly.after]

/-- Reading call by call and reading at once come to the same. -/
theorem readAll_eq_toCome (options : Options) (source : Source) :
    readAll options source = (ofSource options source).toCome := by
  rw [readAll, collect_eq_toCome #[] (ofSource options source) rfl rfl]
  simp [Contents.after]

end Reader

/-! ## Reading that meets a fault -/

/-- What the end would still let go behind the first line. -/
theorem ready_finish_pushAll (options : Options) {ls : List Text} (hl : ∀ l ∈ ls, IsTrimmed l)
    (hne : ls ≠ []) :
    let a := (Assembly.start options).pushAll ls
    a.finish.ready = a.ready ++ (a.pending.toList ++ a.held) := by
  intro a
  have hf : a.finished = false := Assembly.finished_pushAll (.start options) ls
  have hb : Balanced options ([] ++ ls) ⟨a, []⟩ := Balanced.pushAll hl (Balanced.start options) rfl
  have hp : a.pending.isSome := (hb.pending hf).mpr hne
  rw [finish_release hf fun hn => by simp [hn] at hp]
  rfl

section
variable {options : Options} {source : Source} {fault : Fault}

/-- What is to come of a source that meets a fault is what its lines before it have released. -/
theorem toCome_stopped (options : Options)
    (h : (LineFeed.ofSource source).toStop.fault = some fault) :
    let a := (Assembly.start options).pushAll (LineFeed.ofSource source).toStop.lines
    (Reader.ofSource options source).toCome.statements.toList = a.ready ∧
      (Reader.ofSource options source).toCome.fault = some fault := by
  intro a
  rw [Reader.toCome_ofSource]
  refine ⟨?_, h⟩
  simp [Assembly.atStop, h, a]

theorem transfer_stopped (layout : Layout)
    (h : (LineFeed.ofSource source).toStop.fault = some fault) :
    transfer layout options source .unlimited =
      (.error fault, Sink.unlimited.accept (encode (ofLines
        (((Assembly.start options).pushAll (LineFeed.ofSource source).toStop.lines).ready.flatMap
          layout.lines)))) := by
  obtain ⟨hready, hfault⟩ := toCome_stopped options h
  rw [transfer_unlimited, Reader.readAll_eq_toCome, conclude, hfault, hready]
  rfl

theorem stopped_of_transfer {layout : Layout} {sink : Sink}
    (h : transfer layout options source .unlimited = (.error fault, sink)) :
    (LineFeed.ofSource source).toStop.fault = some fault := by
  have hc : (Reader.ofSource options source).toCome.fault = _ :=
    congrArg Reader.Contents.fault (Reader.toCome_ofSource options source)
  rw [transfer_unlimited, Reader.readAll_eq_toCome, conclude, hc] at h
  cases hf : (LineFeed.ofSource source).toStop.fault with
  | some other =>
    rw [hf] at h
    cases h
    rfl
  | none =>
    rw [hf] at h
    cases h

end

/-- **Reading stops at the first fault.** If the feed comes to an end, the calls of a reader give the
statements of its lines and then none for ever. If it meets a fault, they give what the lines before it
have released, then the fault, and then none for ever: the statement in flight and the comments that
wait for it, which an end would still give, are lost. A transfer then fails with that fault, and a
sink with room for all has just the lines of the statements given. -/
theorem reading_stops_at_fault (options : Options) (source : Source) :
    let stop := (LineFeed.ofSource source).toStop
    let reader := Reader.ofSource options source
    let a := (Assembly.start options).pushAll stop.lines
    (stop.fault = none →
      ∀ k, (reader.skip k).next.1 = ((statements options stop.lines).map Except.ok)[k]?) ∧
    ∀ fault, stop.fault = some fault →
      (∀ k, (reader.skip k).next.1 = (a.ready.map Except.ok ++ [Except.error fault])[k]?) ∧
      (stop.lines ≠ [] →
        statements options stop.lines = a.ready ++ (a.pending.toList ++ a.held)) ∧
      (∃ sink, unwrap options source .unlimited = (.error fault, sink) ∧
        sink.contents = encode (ofLines a.ready)) ∧
      ∀ width, ∃ sink, reflow width options source .unlimited = (.error fault, sink) ∧
        sink.contents = encode (ofLines (a.ready.flatMap (wrapStatement width))) := by
  intro stop reader a
  refine ⟨fun he k => ?_, fun fault he => ?_⟩
  · have hs : (Assembly.atStop (.start options) stop).ready = statements options stop.lines := by
      simp [statements, Assembly.assemble_eq, Assembly.atStop, he]
    rw [Reader.next_skip, Reader.results_reading rfl, Reader.toCome_ofSource, hs, he]
    simp
  · obtain ⟨hready, hfault⟩ := toCome_stopped options he
    refine ⟨fun k => ?_, fun hne => ?_, ⟨_, transfer_stopped .oneLine he, ?_⟩, fun width =>
      ⟨_, transfer_stopped (.wrapped width) he, ?_⟩⟩
    · rw [Reader.next_skip, Reader.results_reading rfl, hfault, hready]
      rfl
    · rw [statements, Assembly.assemble_eq]
      exact ready_finish_pushAll options (LineFeed.isTrimmed_of_mem_toStop _) hne
    · have hl : a.ready.flatMap Layout.oneLine.lines = a.ready := List.flatMap_singleton' _
      rw [Sink.contents_accept rfl, hl]
      rfl
    · rw [Sink.contents_accept rfl]
      rfl

end SpiceDeck
