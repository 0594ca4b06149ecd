import SpiceDeck.Files.Request
import SpiceDeck.Proofs.Deck.Calls
import SpiceDeck.Proofs.Files.Paths

/-!
# What a request may touch

A request from one file to another changes one file, the one its output path leads to, and that is never
its input. Making the output empties it, so all that can be wrong with the paths has to be found
before: a request that is `Refused` leaves the tree alone. One that is not runs its transfer into the
output, and what was written before a fault stays there (`execute_confined`).
-/

namespace SpiceDeck

open Text Utf8

/-! ## Sources from a tree -/

/-- What reading a node gives. -/
def Node.source : Node → Source
  | .file contents => .ofBytes contents
  | .directory => .ofAnswers [.failure .isADirectory]

theorem toStop_failure (fault : Fault) (rest : List Answer) :
    (LineFeed.ofSource (.ofAnswers (.failure fault :: rest))).toStop = ⟨[], some fault, 0⟩ := by
  have hr : (Source.ofAnswers (.failure fault :: rest)).readLine =
      (.error fault, .ofAnswers rest) := by
    unfold Source.readLine Source.readLineFrom
    rfl
  have hn : (LineFeed.ofSource (.ofAnswers (.failure fault :: rest))).next =
      (.error fault, .ofSource (.ofAnswers rest)) := by
    unfold LineFeed.next
    split <;> rename_i h <;> rw [LineFeed.ofSource, hr] at h <;> cases h
    rfl
  rw [LineFeed.toStop_fault hn]
  rfl

theorem openSource_eq (t : FileTree) (path : Text) :
    t.openSource path = (t.locate path).map fun found => found.2.source := by
  unfold FileTree.openSource
  cases h : t.locate path with
  | error fault => rfl
  | ok found =>
    obtain ⟨loc, node⟩ := found
    cases node <;> rfl

theorem openSource_unresolved {t : FileTree} {path : Text} {fault : Fault}
    (h : t.resolve path = .error fault) : ∃ fault', t.openSource path = .error fault' := by
  rw [openSource_eq, FileTree.locate]
  cases FileTree.checkPath path with
  | error fault' => exact ⟨fault', rfl⟩
  | ok _ =>
    rw [h]
    exact ⟨fault, rfl⟩

/-! ## Refusals -/

/-- Why a request from one path to another is not begun. -/
inductive Refused (t : FileTree) (input output : Text) : Prop
  | sameFile {loc : Location} {node : Node} (source : t.resolve input = .ok (loc, node))
      (target : t.resolve output = .ok (loc, node))
  | unresolved {fault : Fault} (h : t.resolve input = .error fault)
  | unopened {fault : Fault} (h : t.openSource input = .error fault)
  | uncreated {fault : Fault} (h : t.create output = .error fault)

namespace Request

section
variable {layout : Layout} {options : Options} {input output : Text} {t : FileTree}

theorem execute_unprepared {r : Request} {failure : Failure} (h : r.prepare t = .error failure) :
    r.execute t = ⟨.error failure, [], t⟩ := by
  rw [execute, h]

theorem execute_uncreated {fault : Fault} (h : t.create output = .error fault) :
    ∃ failure, execute ⟨layout, options, .path input, .path output⟩ t =
      ⟨.error failure, [], t⟩ := by
  cases hp : prepare ⟨layout, options, .path input, .path output⟩ t with
  | error failure => exact ⟨failure, execute_unprepared hp⟩
  | ok source =>
    refine ⟨.io fault, ?_⟩
    simp only [execute, hp, store, h]

theorem prepare_unopened {fault : Fault} (h : t.openSource input = .error fault) :
    ∃ failure, prepare ⟨layout, options, .path input, .path output⟩ t = .error failure := by
  unfold prepare
  cases checkPaths ⟨layout, options, .path input, .path output⟩ t with
  | error failure => exact ⟨failure, rfl⟩
  | ok _ =>
    refine ⟨.io fault, ?_⟩
    simp [openSource, h]

theorem prepare_sameFile {loc : Location} {node found : Node}
    (hs : t.resolve input = .ok (loc, node)) (ht : t.locate output = .ok (loc, found)) :
    prepare ⟨layout, options, .path input, .path output⟩ t = .error (.outputIsInput output) := by
  have he : t.pathExists output = true := by
    rw [FileTree.pathExists, ht]
    rfl
  have hr := (FileTree.locate_ok.mp ht).2
  simp [prepare, checkPaths, he, hs, hr]

theorem checkPaths_apart {place : Location} {node : Node} (hs : t.resolve input = .ok (place, node))
    (h : t.locate output ≠ .ok (place, node)) :
    checkPaths ⟨layout, options, .path input, .path output⟩ t = .ok () := by
  unfold checkPaths
  dsimp only
  cases hl : t.locate output with
  | error fault => simp [FileTree.pathExists, hl, Except.isOk, Except.toBool]
  | ok found =>
    obtain ⟨loc, other⟩ := found
    have ht := (FileTree.locate_ok.mp hl).2
    have hne : place ≠ loc := by
      rintro rfl
      have hnode := (FileTree.resolve_ok.mp hs).2.2
      obtain rfl : node = other := by simpa [hnode] using (FileTree.resolve_ok.mp ht).2.2
      exact h hl
    simp [FileTree.pathExists, hl, hs, ht, hne, Except.isOk, Except.toBool, pure, Except.pure]

theorem execute_refused (layout : Layout) (options : Options) (h : Refused t input output) :
    ∃ failure, execute ⟨layout, options, .path input, .path output⟩ t =
      ⟨.error failure, [], t⟩ := by
  have hunopened {fault : Fault} (h : t.openSource input = .error fault) :
      ∃ failure, execute ⟨layout, options, .path input, .path output⟩ t =
        ⟨.error failure, [], t⟩ := by
    obtain ⟨failure, hp⟩ := prepare_unopened h
    exact ⟨failure, execute_unprepared hp⟩
  cases h with
  | @sameFile loc node hs ht =>
    cases hl : t.locate output with
    | error fault =>
      exact execute_uncreated (FileTree.create_of_not_located ht hl)
    | ok found =>
      obtain ⟨loc', node'⟩ := found
      obtain ⟨rfl, rfl⟩ : loc = loc' ∧ node = node' := by
        have hr := (FileTree.locate_ok.mp hl).2
        simpa [ht] using hr
      exact ⟨_, execute_unprepared (prepare_sameFile hs hl)⟩
  | unresolved h =>
    obtain ⟨fault, ho⟩ := openSource_unresolved h
    exact hunopened ho
  | unopened h => exact hunopened h
  | uncreated h => exact execute_uncreated h

theorem execute_created {r : Request} {source : Source} {target : Location}
    (hp : r.prepare t = .ok source) (hr : r.output = .path output)
    (ho : t.locateOutput output = .ok target) :
    r.execute t = ⟨(transfer r.layout r.options source .unlimited).1.mapError .io, [],
      t.put target (.file (transfer r.layout r.options source .unlimited).2.contents)⟩ := by
  simp [execute, hp, hr, store, FileTree.create, ho, FileTree.put_put, pure, Except.pure]

/-- A request that is begun reads one node and makes a file elsewhere. -/
theorem execute_begun (layout : Layout) (options : Options) (h : ¬ Refused t input output) :
    ∃ place node target, t.locate input = .ok (place, node) ∧
      t.locateOutput output = .ok target ∧ place ≠ target ∧
      execute ⟨layout, options, .path input, .path output⟩ t =
        ⟨(transfer layout options node.source .unlimited).1.mapError .io, [],
          t.put target (.file (transfer layout options node.source .unlimited).2.contents)⟩ := by
  cases hi : t.locate input with
  | error fault => exact absurd (.unopened (by rw [openSource_eq, hi]; rfl)) h
  | ok found =>
    obtain ⟨place, node⟩ := found
    cases ho : t.locateOutput output with
    | error fault => exact absurd (.uncreated (by rw [FileTree.create, ho]; rfl)) h
    | ok target =>
      have hs := (FileTree.locate_ok.mp hi).2
      have hnode := (FileTree.resolve_ok.mp hs).2.2
      have hne : place ≠ target := by
        rintro rfl
        have ht := FileTree.locate_of_locateOutput ho hnode
        exact h (.sameFile hs (FileTree.locate_ok.mp ht).2)
      refine ⟨place, node, target, rfl, rfl, hne, ?_⟩
      have hc : checkPaths ⟨layout, options, .path input, .path output⟩ t = .ok () := by
        apply checkPaths_apart hs
        intro hl
        exact h (.sameFile hs (FileTree.locate_ok.mp hl).2)
      have hp : prepare ⟨layout, options, .path input, .path output⟩ t = .ok node.source := by
        simp [prepare, hc, openSource, openSource_eq, hi, Except.map]
      exact execute_created hp rfl ho

end

end Request

/-! ## The frame -/

/-- How a tree may differ after a request from one path to another. -/
structure Confined (input output : Text) (t after : FileTree) : Prop where
  /-- What is not at the place of the output is as it was, and so is what was not there. -/
  others : ∀ loc, (∀ node, after.resolve output ≠ .ok (loc, node)) → after.node? loc = t.node? loc
  place : ∀ loc node, t.resolve output = .ok (loc, node) →
    ∃ node', after.resolve output = .ok (loc, node')
  input : after.resolve input = t.resolve input
  working : after.working = t.working

theorem Confined.refl (input output : Text) (t : FileTree) : Confined input output t t :=
  ⟨fun _ _ => rfl, fun _ node h => ⟨node, h⟩, rfl, rfl⟩

theorem confined_put {t : FileTree} {input output : Text} {source target : Location}
    {found : Node} (node : Node) (hi : t.resolve input = .ok (source, found))
    (ho : t.locateOutput output = .ok target) (hne : source ≠ target) :
    Confined input output t (t.put target node) := by
  have hr : (t.put target node).resolve output = .ok (target, node) :=
    FileTree.resolve_put_output ho
  obtain ⟨-, hw, hroot, hd⟩ := FileTree.locateOutput_ok ho
  refine ⟨fun loc hl => ?_, fun loc old h => ⟨node, ?_⟩, ?_, rfl⟩
  · rw [FileTree.node?_put hroot, if_neg]
    rintro rfl
    exact hl node hr
  · obtain ⟨-, hw', -⟩ := FileTree.resolve_ok.mp h
    obtain rfl : target = loc := by simpa [hw] using hw'
    exact hr
  · rw [hi]
    exact FileTree.resolve_put hroot hd hne hi

/-- **A request touches its output only.** The tree is as it was but for the file of the output,
and the input is as it was. A request that is refused leaves all of it alone. If one succeeds, the
output has what a transfer of the bytes of the input writes, and if reading fails midway it has the
lines of the statements that were given before the fault. -/
theorem execute_confined (layout : Layout) (options : Options) (input output : Text)
    (t : FileTree) :
    let outcome := Request.execute ⟨layout, options, .path input, .path output⟩ t
    Confined input output t outcome.tree ∧
    (Refused t input output →
      outcome.tree = t ∧ ∃ failure, outcome.report = .error failure) ∧
    (∀ loc node, t.locate output = .ok (loc, node) → t.resolve input = .ok (loc, node) →
      outcome.report = .error (.outputIsInput output)) ∧
    (∀ report, outcome.report = .ok report →
      ∃ place data target sink, t.resolve input = .ok (place, .file data) ∧
        transfer layout options (.ofBytes data) .unlimited = (.ok report, sink) ∧
        outcome.tree.resolve output = .ok (target, .file sink.contents)) ∧
    (¬ Refused t input output → ∀ failure, outcome.report = .error failure →
      ∃ place node target fault sink, t.resolve input = .ok (place, node) ∧
        transfer layout options node.source .unlimited = (.error fault, sink) ∧
        failure = .io fault ∧
        outcome.tree.resolve output = .ok (target, .file sink.contents) ∧
        let stop := (LineFeed.ofSource node.source).toStop
        stop.fault = some fault ∧ sink.contents = encode (ofLines
          (((Assembly.start options).pushAll stop.lines).ready.flatMap layout.lines))) := by
  intro outcome
  have hsame (loc : Location) (node : Node) (ht : t.locate output = .ok (loc, node))
      (hs : t.resolve input = .ok (loc, node)) :
      outcome.report = .error (.outputIsInput output) :=
    congrArg Outcome.report (Request.execute_unprepared (Request.prepare_sameFile hs ht))
  by_cases h : Refused t input output
  · obtain ⟨failure, he⟩ := Request.execute_refused layout options h
    have htree : outcome.tree = t := congrArg Outcome.tree he
    have hreport : outcome.report = .error failure := congrArg Outcome.report he
    refine ⟨?_, fun _ => ⟨htree, failure, hreport⟩, hsame, fun report hr => ?_,
      fun hn => absurd h hn⟩
    · rw [htree]
      exact .refl input output t
    · rw [hreport] at hr
      cases hr
  · obtain ⟨place, node, target, hi, ho, hne, he⟩ := Request.execute_begun layout options h
    have hi := (FileTree.locate_ok.mp hi).2
    generalize hw : transfer layout options node.source .unlimited = written at he
    obtain ⟨result, sink⟩ := written
    have htree : outcome.tree = t.put target (.file sink.contents) := congrArg Outcome.tree he
    have hreport : outcome.report = result.mapError .io := congrArg Outcome.report he
    have hout : outcome.tree.resolve output = .ok (target, .file sink.contents) := by
      rw [htree]
      exact FileTree.resolve_put_output ho
    refine ⟨?_, fun hr => absurd hr h, hsame, fun report hr => ?_, fun _ failure hr => ?_⟩
    · rw [htree]
      exact confined_put _ hi ho hne
    · cases result with
      | error fault =>
        rw [hreport] at hr
        cases hr
      | ok report' =>
        obtain rfl : report' = report := by simpa using hreport.symm.trans hr
        cases node with
        | file data => exact ⟨place, data, target, sink, hi, hw, hout⟩
        | directory =>
          have hstop := congrArg Stop.fault (toStop_failure .isADirectory [])
          cases hw.symm.trans (transfer_stopped layout hstop)
    · cases result with
      | error fault =>
        obtain rfl : .io fault = failure := by simpa using hreport.symm.trans hr
        have hstop := stopped_of_transfer hw
        refine ⟨place, node, target, fault, sink, hi, hw, rfl, hout, hstop, ?_⟩
        obtain ⟨-, rfl⟩ := Prod.mk.inj (hw.symm.trans (transfer_stopped layout hstop))
        rw [Sink.contents_accept rfl]
        rfl
      | ok report =>
        rw [hreport] at hr
        cases hr

end SpiceDeck
