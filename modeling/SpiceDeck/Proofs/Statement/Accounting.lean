import SpiceDeck.Proofs.Statement.Iteration

/-!
# What the counters add up to

An assembly may be given lines, asked for statements and ended in any order. `Balanced` ties its
counters to the lines it has taken, to what was taken out and to what is still in it. Each operation
keeps the balance, so it holds at every moment of a session (`session_balanced`).
-/

namespace SpiceDeck

/-! ## Sessions -/

inductive Operation
  | push (line : Text)
  | pop
  | finish
  deriving DecidableEq

/-- The lines pushed before the first end, trimmed and without the blank ones. -/
def linesTaken : List Operation → List Text
  | [] => []
  | .push line :: rest => Text.trimmedLines [line] ++ linesTaken rest
  | .pop :: rest => linesTaken rest
  | .finish :: _ => []

/-- An assembly in use, with the statements taken out of it so far. -/
structure Session where
  assembly : Assembly
  popped : List Text := []

namespace Session

def start (options : Options) : Session := { assembly := .start options }

def perform (s : Session) : Operation → Session
  | .push line => { s with assembly := s.assembly.push line }
  | .pop => ⟨s.assembly.pop.2, s.popped ++ s.assembly.pop.1.toList⟩
  | .finish => { s with assembly := s.assembly.finish }

def performAll (s : Session) : List Operation → Session
  | [] => s
  | op :: ops => (s.perform op).performAll ops

theorem finished_performAll (s : Session) (ops : List Operation) :
    (s.performAll ops).assembly.finished = true ↔
      s.assembly.finished = true ∨ Operation.finish ∈ ops := by
  induction ops generalizing s with
  | nil => simp [performAll]
  | cons op ops ih =>
    rw [performAll, ih]
    cases op with
    | push line => simp [perform, Assembly.finished_push]
    | pop => simp [perform, Assembly.finished_pop]
    | finish => simp [perform, Assembly.finished_finish]

end Session

/-! ## The balance -/

/-- A first line that is a continuation continues a statement that no line began. -/
def opened (lines : List Text) : Nat := (lines.head?.any continuesStatement).toNat

/-- The statements that the lines begin, going by the counters. -/
def Counts.begun (c : Counts) (lines : List Text) : Nat := c.physical - c.continuation + opened lines

/-- How an assembly that has taken the lines stands, before the end and after it. -/
structure Balanced (options : Options) (lines : List Text) (s : Session) : Prop where
  sameOptions : s.assembly.options = options
  held : s.assembly.held ≠ [] →
    s.assembly.pending.isSome ∧ s.assembly.continuing = true ∧ options.comments = .hold
  continuing : s.assembly.finished = false → s.assembly.continuing = true →
    s.assembly.pending.isSome
  pending : s.assembly.finished = false → (s.assembly.pending.isSome ↔ lines ≠ [])
  logical : s.assembly.counts.logical = s.popped.length + s.assembly.ready.length
  physical : s.assembly.counts.physical = lines.length
  continuation : s.assembly.counts.continuation = lines.countP continuesStatement
  inFlight : s.assembly.finished = false →
    s.assembly.counts.logical + s.assembly.pending.toList.length + s.assembly.held.length =
      s.assembly.counts.begun lines
  ended : s.assembly.finished = true → s.assembly.pending = none ∧ s.assembly.held = [] ∧
    s.assembly.counts.logical =
      if lines = [] then if options.emptyDeck = .emptyLine then 1 else 0
      else s.assembly.counts.begun lines

theorem Balanced.start (options : Options) : Balanced options [] (.start options) := by
  constructor <;> simp [Session.start, Assembly.start, Counts.begun, opened]

section
variable {options : Options} {lines : List Text} {a : Assembly} {popped : List Text}

theorem Balanced.pop (h : Balanced options lines ⟨a, popped⟩) :
    Balanced options lines (Session.perform ⟨a, popped⟩ .pop) := by
  cases hr : a.ready with
  | nil =>
    have hs : Session.perform ⟨a, popped⟩ .pop = ⟨a, popped⟩ := by
      simp [Session.perform, Assembly.pop_of_empty hr]
    rw [hs]
    exact h
  | cons x rest =>
    have hs : Session.perform ⟨a, popped⟩ .pop = ⟨{ a with ready := rest }, popped ++ [x]⟩ := by
      simp [Session.perform, Assembly.pop, hr]
    have hl := h.logical
    simp only [hr, List.length_cons] at hl
    rw [hs]
    refine { h with logical := ?_ }
    simp only [List.length_append, List.length_singleton]
    omega

/-! ### Taking a line -/

theorem opened_concat (lines : List Text) (l : Text) :
    opened (lines ++ [l]) = if lines = [] then (continuesStatement l).toNat else opened lines := by
  cases lines <;> simp [opened]

/-- A continuation begins a statement only if it comes first. -/
theorem begun_continuation (lines : List Text) {c d : Counts} {l : Text}
    (hl : continuesStatement l = true) (hp : d.physical = c.physical + 1) (hc : d.continuation = c.continuation + 1) :
    d.begun (lines ++ [l]) = c.begun lines + if lines = [] then 1 else 0 := by
  unfold Counts.begun
  rw [opened_concat, hp, hc]
  by_cases hn : lines = []
  · subst hn
    simp [hl, opened]
  · simp [hn]

theorem begun_start (lines : List Text) {c d : Counts} {l : Text}
    (hl : continuesStatement l = false) (hp : d.physical = c.physical + 1) (hc : d.continuation = c.continuation)
    (hle : c.continuation ≤ c.physical) :
    d.begun (lines ++ [l]) = c.begun lines + 1 := by
  unfold Counts.begun
  rw [opened_concat, hp, hc]
  by_cases hn : lines = []
  · subst hn
    simp only [hl, opened, List.head?_nil, Option.any_none, Bool.toNat_false, if_true]
    omega
  · rw [if_neg hn]
    omega

section
variable (h : Balanced options lines ⟨a, popped⟩)
include h

theorem Balanced.continuation_le : a.counts.continuation ≤ a.counts.physical := by
  have hc := h.continuation
  have hp := h.physical
  have hle : lines.countP continuesStatement ≤ lines.length := List.countP_le_length
  dsimp only at hc hp
  omega

variable (hf : a.finished = false)
include hf

/-- Before the first line there is no statement in flight, and from then on there is one. -/
theorem Balanced.length_pending :
    a.pending.toList.length + (if lines = [] then 1 else 0) = 1 := by
  have hp := h.pending hf
  dsimp only at hp
  by_cases hn : lines = []
  · simp_all
  · obtain ⟨p, ha⟩ := Option.isSome_iff_exists.mp (hp.mpr hn)
    simp [hn, ha]

variable {l : Text}

theorem Balanced.join (hl : continuesStatement l = true) :
    Balanced options (lines ++ [l]) ⟨a.countLine.join l, popped⟩ := by
  have hin := h.inFlight hf
  have hlen := h.length_pending hf
  have hb := begun_continuation lines (c := a.counts)
    (d := (a.countLine.join l).counts) hl rfl rfl
  refine
    { sameOptions := h.sameOptions
      held := fun hh => ⟨rfl, rfl, (h.held hh).2.2⟩
      continuing := fun _ _ => rfl
      pending := fun _ => by simp [Assembly.join]
      logical := h.logical
      physical := ?_
      continuation := ?_
      inFlight := fun _ => ?_
      ended := fun he => absurd (hf.symm.trans he) (by decide) }
  · rw [List.length_append, ← h.physical]
    rfl
  · rw [List.countP_append, ← h.continuation, List.countP_singleton, if_pos hl]
    rfl
  · rw [hb]
    simp only [Assembly.join, Assembly.countLine, Option.toList_some, List.length_singleton]
    dsimp only at hin
    omega

/-- A comment is held only behind a continuation, and then a statement is in flight. -/
theorem Balanced.holdComment (hl : continuesStatement l = false)
    (hh : (a.continuing && a.options.comments == .hold && isCommentLine l) = true) :
    Balanced options (lines ++ [l]) ⟨a.countLine.holdComment l, popped⟩ := by
  have hin := h.inFlight hf
  have hb := begun_start lines (c := a.counts)
    (d := (a.countLine.holdComment l).counts) hl rfl rfl h.continuation_le
  have ho : a.options = options := h.sameOptions
  simp only [Bool.and_eq_true, beq_iff_eq, ho] at hh
  have hsome : a.pending.isSome := h.continuing hf hh.1.1
  refine
    { sameOptions := h.sameOptions
      held := fun _ => ⟨hsome, hh.1⟩
      continuing := h.continuing
      pending := fun _ => by simp [Assembly.holdComment, Assembly.countLine, hsome]
      logical := h.logical
      physical := ?_
      continuation := ?_
      inFlight := fun _ => ?_
      ended := fun he => absurd (hf.symm.trans he) (by decide) }
  · rw [List.length_append, ← h.physical]
    rfl
  · rw [List.countP_append, ← h.continuation, List.countP_singleton, if_neg (by simp [hl])]
    rfl
  · rw [hb]
    simp only [Assembly.holdComment, Assembly.countLine, List.length_append,
      List.length_singleton]
    dsimp only at hin
    omega

theorem Balanced.begin (hl : continuesStatement l = false) :
    Balanced options (lines ++ [l]) ⟨a.countLine.begin l, popped⟩ := by
  have hin := h.inFlight hf
  have hlog := h.logical
  have hb := begun_start lines (c := a.counts)
    (d := (a.countLine.begin l).counts) hl rfl rfl h.continuation_le
  dsimp only at hin hlog
  refine
    { sameOptions := h.sameOptions
      held := fun hh => absurd rfl hh
      continuing := fun _ _ => rfl
      pending := fun _ => by simp [Assembly.begin]
      logical := ?_
      physical := ?_
      continuation := ?_
      inFlight := fun _ => ?_
      ended := fun he => absurd (hf.symm.trans he) (by decide) }
  · simp only [Assembly.begin, Assembly.release, Assembly.queue, Assembly.countLine,
      List.length_append]
    omega
  · rw [List.length_append, ← h.physical]
    rfl
  · rw [List.countP_append, ← h.continuation, List.countP_singleton, if_neg (by simp [hl])]
    rfl
  · rw [hb]
    simp only [Assembly.begin, Assembly.release, Assembly.queue, Assembly.countLine,
      List.length_append, Option.toList_some, List.length_singleton, List.length_nil]
    omega

theorem Balanced.take (l : Text) : Balanced options (lines ++ [l]) ⟨a.take l, popped⟩ := by
  by_cases hc : continuesStatement l = true
  · rw [Assembly.take_continuation hc]
    exact h.join hf hc
  have hl : continuesStatement l = false := by simpa using hc
  by_cases hh : (a.continuing && a.options.comments == .hold && isCommentLine l) = true
  · rw [Assembly.take_held hc hh]
    exact h.holdComment hf hl hh
  · rw [Assembly.take_start hc hh]
    exact h.begin hf hl

theorem Balanced.push (l : Text) :
    Balanced options (lines ++ Text.trimmedLines [l]) (Session.perform ⟨a, popped⟩ (.push l)) := by
  rw [Text.trimmedLines_cons]
  by_cases hb : Text.trim l = []
  · have hs : Session.perform ⟨a, popped⟩ (.push l) = ⟨a, popped⟩ := by
      simp [Session.perform, Assembly.push_blank a hb]
    rw [hs, if_pos hb, Text.trimmedLines_nil, List.append_nil]
    exact h
  · have hs : Session.perform ⟨a, popped⟩ (.push l) = ⟨a.take (Text.trim l), popped⟩ := by
      simp [Session.perform, Assembly.push, hb, hf]
    rw [hs, if_neg hb]
    exact h.take hf (Text.trim l)

end

/-! ### The end -/

theorem finish_emptyLine (hf : a.finished = false) (hp : a.pending = none)
    (he : a.options.emptyDeck = .emptyLine) :
    a.finish = { a with finished := true }.queue [[]] := by
  simp [Assembly.finish, hf, hp, he]

theorem finish_release (hf : a.finished = false)
    (h : a.pending = none → a.options.emptyDeck ≠ .emptyLine) :
    a.finish = { a with finished := true }.release := by
  unfold Assembly.finish
  rw [if_neg (by simp [hf])]
  apply if_neg
  intro hc
  simp only [Bool.and_eq_true, Option.isNone_iff_eq_none, beq_iff_eq] at hc
  exact h hc.1 hc.2

theorem Balanced.held_of_none (h : Balanced options lines ⟨a, popped⟩) (hp : a.pending = none) :
    a.held = [] := by
  by_cases hh : a.held = []
  · exact hh
  · have hs : a.pending.isSome := (h.held hh).1
    rw [hp] at hs
    cases hs

theorem Balanced.begun_nil (h : Balanced options [] ⟨a, popped⟩) : a.counts.begun [] = 0 := by
  have hp : a.counts.physical = 0 := h.physical
  simp [Counts.begun, opened, hp]

/-- With nothing in flight the end lets no comments go, but then none wait. -/
theorem Balanced.finish (h : Balanced options lines ⟨a, popped⟩) :
    Balanced options lines (Session.perform ⟨a, popped⟩ .finish) := by
  by_cases hf : a.finished = true
  · have hs : Session.perform ⟨a, popped⟩ .finish = ⟨a, popped⟩ := by
      simp [Session.perform, Assembly.finish_of_finished hf]
    rw [hs]
    exact h
  have hf : a.finished = false := by simpa using hf
  have hin := h.inFlight hf
  have hlen := h.length_pending hf
  have hlog := h.logical
  obtain rfl : a.options = options := h.sameOptions
  dsimp only at hin hlog
  unfold Session.perform
  dsimp only
  by_cases he : a.pending = none ∧ a.options.emptyDeck = .emptyLine
  · have hheld := h.held_of_none he.1
    have hnil : lines = [] := by
      by_cases hn : lines = []
      · exact hn
      · simp [hn, he.1] at hlen
    subst hnil
    have hzero := h.begun_nil
    rw [finish_emptyLine hf he.1 he.2]
    refine
      { h with
        logical := ?_
        continuing := fun hx => by cases hx
        pending := fun hx => by cases hx
        inFlight := fun hx => by cases hx
        ended := fun _ => ⟨he.1, hheld, ?_⟩ }
    · simp only [Assembly.queue, List.length_append]
      omega
    · rw [if_pos rfl, if_pos he.2]
      simp only [Assembly.queue, List.length_singleton]
      omega
  · rw [finish_release hf fun hp hc => he ⟨hp, hc⟩]
    refine
      { h with
        held := fun hx => absurd rfl hx
        logical := ?_
        continuing := fun hx => by cases hx
        pending := fun hx => by cases hx
        inFlight := fun hx => by cases hx
        ended := fun _ => ⟨rfl, rfl, ?_⟩ }
    · simp only [Assembly.release, Assembly.queue, List.length_append]
      omega
    · have hcount : ({ a with finished := true }.release).counts.logical = a.counts.begun lines := by
        simp only [Assembly.release, Assembly.queue, List.length_append]
        omega
      by_cases hn : lines = []
      · subst hn
        have hp : a.pending = none := by
          cases hp : a.pending with
          | none => rfl
          | some p => simp [hp] at hlen
        rw [if_pos rfl, if_neg fun hc => he ⟨hp, hc⟩]
        exact hcount.trans h.begun_nil
      · rw [if_neg hn]
        exact hcount

/-! ## Whole sessions -/

theorem Balanced.performAll (ops : List Operation) :
    ∀ {lines : List Text} {s : Session}, Balanced options lines s →
      Balanced options (if s.assembly.finished then lines else lines ++ linesTaken ops)
        (s.performAll ops) := by
  induction ops with
  | nil =>
    intro lines s h
    simpa [linesTaken, Session.performAll] using h
  | cons op ops ih =>
    intro lines s h
    rw [Session.performAll]
    cases op with
    | push l =>
      by_cases hf : s.assembly.finished = true
      · have hs : s.perform (.push l) = s := by
          simp [Session.perform, Assembly.push_of_finished hf]
        rw [hs]
        simpa [hf] using ih h
      · have hf : s.assembly.finished = false := by simpa using hf
        have hs := ih (h.push hf l)
        simpa [Session.perform, Assembly.finished_push, hf, linesTaken] using hs
    | pop =>
      have hs := ih h.pop
      simpa [Session.perform, Assembly.finished_pop, linesTaken] using hs
    | finish =>
      have hs := ih h.finish
      simpa [Session.perform, Assembly.finished_finish, linesTaken] using hs

theorem Balanced.pushAll {ls : List Text} (hl : ∀ l ∈ ls, Text.IsTrimmed l) :
    ∀ {lines : List Text} {a : Assembly}, Balanced options lines ⟨a, popped⟩ → a.finished = false →
      Balanced options (lines ++ ls) ⟨a.pushAll ls, popped⟩ := by
  induction ls with
  | nil =>
    intro lines a h _
    simpa using h
  | cons l ls ih =>
    intro lines a h hf
    have ht := h.take hf l
    rw [← Assembly.push_eq_take hf (hl l (List.mem_cons_self ..))] at ht
    have hall := ih (fun m hm => hl m (List.mem_cons_of_mem _ hm)) ht
      (by rw [Assembly.finished_push, hf])
    rwa [List.append_assoc] at hall

end

/-- **The counters balance.** -/
theorem session_balanced (options : Options) (ops : List Operation) :
    Balanced options (linesTaken ops) ((Session.start options).performAll ops) ∧
      (((Session.start options).performAll ops).assembly.finished = true ↔ Operation.finish ∈ ops) ∧
      (Operation.finish ∈ ops →
        (∀ line, ((Session.start options).performAll ops).perform (.push line) =
          (Session.start options).performAll ops) ∧
        ((Session.start options).performAll ops).perform .finish =
          (Session.start options).performAll ops) := by
  have hf : ((Session.start options).performAll ops).assembly.finished = true ↔
      Operation.finish ∈ ops := by
    simp [Session.finished_performAll, Session.start, Assembly.start]
  have hb : Balanced options (linesTaken ops) ((Session.start options).performAll ops) :=
    (Balanced.start options).performAll ops
  refine ⟨hb, hf, fun hm => ⟨fun line => ?_, ?_⟩⟩
  · simp [Session.perform, Assembly.push_of_finished (hf.mpr hm)]
  · simp [Session.perform, Assembly.finish_of_finished (hf.mpr hm)]

end SpiceDeck
