import SpiceDeck.Proofs.Statement.Accounting

/-!
# Taking statements out

A statement that is taken out is missed by nothing that comes later. `Session.whole` puts the ones taken
out back in front of those that are ready; a session runs on it as it does with nothing taken out
(`whole_performAll`). So the statements taken out are at every moment the first of one list
(`pops_take_first`).
-/

namespace SpiceDeck

def Operation.takesOut (op : Operation) : Bool := op == .pop

/-- The same operations with nothing taken out. -/
def withoutPops (ops : List Operation) : List Operation := ops.filter (!·.takesOut)

theorem withoutPops_pop (ops : List Operation) : withoutPops (.pop :: ops) = withoutPops ops := rfl

theorem withoutPops_cons {op : Operation} (h : op.takesOut = false) (ops : List Operation) :
    withoutPops (op :: ops) = op :: withoutPops ops := by
  simp [withoutPops, h]

namespace Session

/-- The assembly as it would be if nothing had been taken out. -/
def whole (s : Session) : Assembly := s.assembly.after s.popped

def ofAssembly (a : Assembly) : Session := { assembly := a }

section
variable (s : Session)

theorem whole_pop : (s.perform .pop).whole = s.whole := by
  unfold whole perform
  cases h : s.assembly.ready with
  | nil => simp [Assembly.pop_of_empty h]
  | cons x rest => simp [Assembly.pop, Assembly.after, h]

theorem whole_perform {op : Operation} (h : op.takesOut = false) :
    (s.perform op).whole = ((ofAssembly s.whole).perform op).assembly := by
  cases op with
  | push line => exact (Assembly.push_after s.popped s.assembly line).symm
  | pop => cases h
  | finish => exact (Assembly.finish_after s.popped s.assembly).symm

theorem popped_perform {op : Operation} (h : op.takesOut = false) :
    (s.perform op).popped = s.popped := by
  cases op with
  | push line => rfl
  | pop => cases h
  | finish => rfl

/-! ## Whole sessions -/

/-- **Taking out commutes with the rest.** -/
theorem whole_performAll (ops : List Operation) :
    ofAssembly (s.performAll ops).whole = (ofAssembly s.whole).performAll (withoutPops ops) := by
  induction ops generalizing s with
  | nil => rfl
  | cons op ops ih =>
    rw [performAll, ih]
    by_cases h : op.takesOut = true
    · obtain rfl : op = .pop := by simpa [Operation.takesOut] using h
      rw [whole_pop, withoutPops_pop]
    · rw [Bool.not_eq_true] at h
      have hp : (ofAssembly s.whole).perform op = ofAssembly (s.perform op).whole := by
        rw [whole_perform s h]
        exact congrArg (Session.mk _) (popped_perform (ofAssembly s.whole) h)
      rw [withoutPops_cons h, performAll, hp]

theorem popped_performAll (ops : List Operation) : s.popped <+: (s.performAll ops).popped := by
  induction ops generalizing s with
  | nil => exact List.prefix_rfl
  | cons op ops ih =>
    rw [performAll]
    refine List.IsPrefix.trans ?_ (ih (s.perform op))
    cases op with
    | push line => exact List.prefix_rfl
    | pop => exact List.prefix_append _ _
    | finish => exact List.prefix_rfl

theorem performAll_append (ops more : List Operation) :
    s.performAll (ops ++ more) = (s.performAll ops).performAll more := by
  induction ops generalizing s with
  | nil => rfl
  | cons op ops ih => exact ih (s.perform op)

end

end Session

/-- **First in, first out.** Take any session of a new assembly and the same one with nothing taken out.
The statements taken out and behind them those that are ready are all that the other has ready, and the
counts and whether the deck has ended are the same. What was taken out after any of the first operations
is how that list begins. -/
theorem pops_take_first (options : Options) (ops : List Operation) :
    let s := (Session.start options).performAll ops
    let kept := (Session.start options).performAll (withoutPops ops)
    s.popped ++ s.assembly.ready = kept.assembly.ready ∧
      s.assembly.counts = kept.assembly.counts ∧
      s.assembly.finished = kept.assembly.finished ∧
      ∀ first, first <+: ops →
        ((Session.start options).performAll first).popped <+: kept.assembly.ready := by
  intro s kept
  have hw : Session.ofAssembly s.whole = kept := Session.whole_performAll (Session.start options) ops
  rw [← hw]
  refine ⟨rfl, rfl, rfl, ?_⟩
  rintro first ⟨more, hops⟩
  have hp : ((Session.start options).performAll first).popped <+: s.popped := by
    unfold s
    rw [← hops, Session.performAll_append]
    exact Session.popped_performAll _ more
  exact hp.trans (List.prefix_append _ _)

end SpiceDeck
