import SpiceDeck.Proofs.Deck.Transfer

/-!
# Sinks that run full

A sink with a limit gets what a sink without limit gets, cut off at the limit. Writing there goes on as
it does without limit for as long as the bytes fit, and stops with the refusal of the sink at the
first byte too many (`Follows`). So a transfer into it fails for want of room just when the
whole output is longer than the limit (`transfer_cut`).
-/

namespace SpiceDeck

open Text Utf8

/-! ## One write -/

namespace Sink

/-- The sink once these bytes were offered to it. -/
def holding (b : Sink) (limit : Nat) (d : Bytes) : Sink :=
  { b with taken := (d.take limit).toArray }

theorem contents_holding (b : Sink) (limit : Nat) (d : Bytes) :
    (b.holding limit d).contents = d.take limit := rfl

theorem holding_full (b : Sink) {limit : Nat} {d : Bytes} (h : limit ≤ d.length) (e : Bytes) :
    b.holding limit (d ++ e) = b.holding limit d := by
  rw [holding, List.take_append_of_le_length h]
  rfl

/-- Also a full sink takes no bytes without fault. -/
theorem write_holding {b : Sink} {limit : Nat} (hb : b.limit = some limit) (d e : Bytes) :
    (b.holding limit d).write e =
      (if e = [] ∨ (d ++ e).length ≤ limit then none else some b.refusal, b.holding limit (d ++ e)) := by
  have hlimit : (b.holding limit d).limit = some limit := hb
  have hsize : (b.holding limit d).taken.size = min limit d.length := by simp [holding]
  have hfits : (b.holding limit d).fits e = decide (e = [] ∨ (d ++ e).length ≤ limit) := by
    simp only [fits, hlimit, hsize]
    congr 1
    rw [List.length_append, ← List.length_eq_zero_iff, eq_iff_iff]
    omega
  have htaken : (b.holding limit d).taken ++ e.take (limit - min limit d.length) =
      (b.holding limit (d ++ e)).taken := by
    apply Array.ext'
    have hsub : limit - min limit d.length = limit - d.length := by omega
    simp [holding, List.take_append, hsub]
  have haccept : (b.holding limit d).accept e = b.holding limit (d ++ e) := by
    unfold accept
    simp only [hlimit, hsize, htaken]
    rw [← hb]
    rfl
  rw [write, hfits, haccept]
  simp only [decide_eq_true_eq]
  rfl

/-- The sink once it has been offered all that `s` has. -/
def cut (b : Sink) (limit : Nat) (s : Sink) : Sink :=
  { b with taken := (s.contents.take limit).toArray }

section
variable {b s : Sink} {limit : Nat}

theorem cut_congr {s' : Sink} (hp : s.contents <+: s'.contents) (h : limit ≤ s.contents.length) :
    b.cut limit s' = b.cut limit s := by
  obtain ⟨more, hm⟩ := hp
  have hfull := b.holding_full h more
  rw [hm] at hfull
  exact hfull

theorem write_cut (hb : b.limit = some limit) (hs : s.limit = none)
    (h : s.contents.length ≤ limit) (data : Bytes) :
    (b.cut limit s).write data =
      (if (s.accept data).contents.length ≤ limit then none else some b.refusal,
        b.cut limit (s.accept data)) := by
  have hfits : (data = [] ∨ (s.accept data).contents.length ≤ limit) ↔
      (s.accept data).contents.length ≤ limit := by
    rw [contents_accept hs]
    constructor
    · rintro (rfl | hfit)
      · rwa [List.append_nil]
      · exact hfit
    · exact .inr
  have hwrite := write_holding hb s.contents data
  rw [← contents_accept hs] at hwrite
  simp only [hfits] at hwrite
  exact hwrite

end

end Sink

/-! ## Writing on -/

/-- The writer with the limited sink in place of its own. -/
def Writer.onto (w : Writer) (b : Sink) (limit : Nat) : Writer :=
  { w with sink := b.cut limit w.sink }

/-- On a sink without limit `f` meets no fault. On the limited sink it does the same as long as
the bytes fit, and if they do not it fails with the refusal of the sink. -/
def Follows (b : Sink) (limit : Nat) (f : Writer → Option Fault × Writer) : Prop :=
  ∀ w : Writer, w.sink.limit = none →
    ∃ w', f w = (none, w') ∧ w'.sink.limit = none ∧ w.sink.contents <+: w'.sink.contents ∧
      (w.sink.contents.length ≤ limit →
        if w'.sink.contents.length ≤ limit then f (w.onto b limit) = (none, w'.onto b limit)
        else ∃ v, f (w.onto b limit) = (some b.refusal, v) ∧ v.sink = b.cut limit w'.sink)

/-- First `f`, and then `g` unless that failed. -/
def andThen (f g : Writer → Option Fault × Writer) (w : Writer) : Option Fault × Writer :=
  match f w with
  | (some fault, w) => (some fault, w)
  | (none, w) => g w

namespace Follows

section
variable {b : Sink} {limit : Nat} {f g : Writer → Option Fault × Writer}

theorem andThen (hf : Follows b limit f) (hg : Follows b limit g) :
    Follows b limit (andThen f g) := by
  intro w hw
  obtain ⟨w₁, h₁, hl₁, hp₁, hc₁⟩ := hf w hw
  obtain ⟨w₂, h₂, hl₂, hp₂, hc₂⟩ := hg w₁ hl₁
  have hle := hp₂.length_le
  refine ⟨w₂, by simp only [SpiceDeck.andThen, h₁, h₂], hl₂, hp₁.trans hp₂, fun h => ?_⟩
  have hc₁ := hc₁ h
  by_cases hfit : w₁.sink.contents.length ≤ limit
  · rw [if_pos hfit] at hc₁
    have hc₂ := hc₂ hfit
    simpa only [SpiceDeck.andThen, hc₁] using hc₂
  · rw [if_neg hfit] at hc₁
    obtain ⟨v, hv, hs⟩ := hc₁
    rw [if_neg (by omega)]
    refine ⟨v, by simp only [SpiceDeck.andThen, hv], ?_⟩
    rw [hs, Sink.cut_congr hp₂ (by omega)]

/-- What only keeps count. -/
theorem note {g : Writer → Writer} (hs : ∀ w, (g w).sink = w.sink)
    (hg : ∀ w, g (w.onto b limit) = (g w).onto b limit) : Follows b limit fun w => (none, g w) := by
  intro w hw
  have hcontents : w.sink.contents = (g w).sink.contents := by rw [hs]
  refine ⟨g w, rfl, by rw [hs, hw], hcontents ▸ List.prefix_rfl, fun h => ?_⟩
  rw [if_pos (hcontents ▸ h)]
  dsimp only
  rw [hg]

end

end Follows

namespace Writer

def put (data : Bytes) (w : Writer) : Option Fault × Writer :=
  ((w.sink.write data).1, { w with sink := (w.sink.write data).2 })

theorem writeLine_eq (line : Text) :
    (·.writeLine line) = andThen (put (encode line))
      (andThen (put newline) fun w => (none, w.countLine ((encode line).length + 1))) := by
  funext w
  rcases h : w.sink.write (encode line) with ⟨_ | fault, sink⟩
  · rcases h' : sink.write newline with ⟨_ | fault, sink'⟩ <;>
      simp only [writeLine, andThen, put, h, h']
  · simp only [writeLine, andThen, put, h]

section
variable {b : Sink} {limit : Nat} (hb : b.limit = some limit)
include hb

theorem follows_put (data : Bytes) : Follows b limit (put data) := by
  intro w hw
  refine ⟨{ w with sink := w.sink.accept data }, ?_, ?_, ?_, fun h => ?_⟩
  · unfold put
    rw [Sink.write_unlimited hw]
  · exact (Sink.limit_accept w.sink data).trans hw
  · rw [Sink.contents_accept hw]
    exact List.prefix_append _ _
  · have hput : put data (w.onto b limit) = _ := congrArg
      (fun x => (x.1, { w with sink := x.2 })) (Sink.write_cut hb hw h data)
    rw [hput]
    split
    · rfl
    · exact ⟨_, rfl, rfl⟩

theorem follows_writeLine (line : Text) : Follows b limit (·.writeLine line) := by
  rw [writeLine_eq]
  exact (follows_put hb _).andThen ((follows_put hb _).andThen (.note (fun _ => rfl) fun _ => rfl))

theorem follows_writeLines (ls : List Text) : Follows b limit (·.writeLines ls) := by
  induction ls with
  | nil => exact .note (fun _ => rfl) fun _ => rfl
  | cons l ls ih =>
    have hnote : Follows b limit fun w => (none, w.noteWidth l) :=
      .note (fun w => by unfold noteWidth; split <;> rfl)
        fun w => by unfold noteWidth onto; dsimp only; split <;> rfl
    exact (hnote.andThen (follows_writeLine hb l)).andThen ih

theorem follows_write (s : Text) : Follows b limit (·.write s) := by
  intro w
  exact follows_writeLines hb (w.layout.lines s)
    { w with metrics := { w.metrics with logical := w.metrics.logical + 1 } }

theorem follows_writeAll (ss : List Text) : Follows b limit (·.writeAll ss) := by
  induction ss with
  | nil => exact .note (fun _ => rfl) fun _ => rfl
  | cons s ss ih => exact (follows_write hb s).andThen ih

end

end Writer

/-! ## Transfers -/

theorem conclude_onto {b : Sink} {limit : Nat} {w : Writer} (c : Reader.Contents)
    (h : w.finish = none) :
    conclude c (w.onto b limit) =
      match conclude c w with
      | .error fault => .error fault
      | .ok report => if b.flushFails then .error .flushFailed else .ok report := by
  have hb : (w.onto b limit).finish = if b.flushFails then some .flushFailed else none := rfl
  unfold conclude
  rw [hb, h]
  cases c.fault with
  | some fault => rfl
  | none => cases b.flushFails <;> rfl

/-- **A full sink holds a prefix.** Take a sink with a limit. After a transfer it has the first
bytes, up to the limit, of what a sink without limit would have. If that is more than the limit, the
transfer fails with the refusal of the sink, whatever the source has in store. If not, it ends as
without a limit, with the same report or the same fault of the source, except that a flush that fails
spoils a success. -/
theorem transfer_cut (layout : Layout) (options : Options) (source : Source) (limit : Nat)
    (refusal : Fault) (flushFails : Bool) :
    let free := transfer layout options source .unlimited
    let run := transfer layout options source { limit := some limit, refusal, flushFails }
    run.2.contents = free.2.contents.take limit ∧
      run.1 = (if limit < free.2.contents.length then .error refusal
        else match free.1 with
          | .error fault => .error fault
          | .ok report => if flushFails then .error .flushFailed else .ok report) ∧
      (free.1 ≠ .error refusal → refusal ≠ .flushFailed →
        (run.1 = .error refusal ↔ limit < free.2.contents.length)) := by
  intro free run
  suffices h : run.2.contents = free.2.contents.take limit ∧
      run.1 = (if limit < free.2.contents.length then .error refusal
        else match free.1 with
          | .error fault => .error fault
          | .ok report => if flushFails then .error .flushFailed else .ok report) by
    refine ⟨h.1, h.2, fun hne hflushed => ⟨fun he => ?_, fun hlt => by rw [h.2, if_pos hlt]⟩⟩
    apply Decidable.byContradiction
    intro hlt
    rw [h.2, if_neg hlt] at he
    -- the only fault that the run does not share with the free one is that of the flush
    split at he
    · rename_i fault hf
      rw [hf] at hne
      exact hne he
    · split at he
      · injection he with he
        exact hflushed he.symm
      · cases he
  let b : Sink := { limit := some limit, refusal, flushFails }
  let contents := Reader.readAll options source
  let w := Writer.ofSink layout .unlimited
  have honto : w.onto b limit = Writer.ofSink layout b := by
    simp [w, Writer.onto, Writer.ofSink, Sink.cut, Sink.contents, Sink.unlimited, b]
  obtain ⟨w', hw, hflush⟩ : ∃ w', w.writeAll contents.statements.toList = (none, w') ∧
      w'.finish = none :=
    ⟨_, Writer.writeAll_unlimited rfl _, rfl⟩
  have hfollows : Follows b limit (·.writeAll contents.statements.toList) :=
    Writer.follows_writeAll rfl _
  obtain ⟨w₁, hw₁, -, -, hc⟩ := hfollows w rfl
  obtain rfl : w' = w₁ := congrArg Prod.snd (hw.symm.trans hw₁)
  have hc := hc (Nat.zero_le limit)
  dsimp only at hc
  rw [honto] at hc
  have hfree : free = (conclude contents w', w'.sink) := transfer_written hw
  rw [hfree]
  by_cases hfit : w'.sink.contents.length ≤ limit
  · have hcut : (w'.onto b limit).sink.contents = w'.sink.contents.take limit := by
      simp [Writer.onto, Sink.cut, Sink.contents]
    have hlt : ¬ limit < w'.sink.contents.length := by omega
    rw [if_pos hfit] at hc
    have hrun : run = (conclude contents (w'.onto b limit), (w'.onto b limit).sink) :=
      transfer_written hc
    rw [hrun, hcut, if_neg hlt]
    exact ⟨rfl, conclude_onto contents hflush⟩
  · have hlt : limit < w'.sink.contents.length := by omega
    rw [if_neg hfit] at hc
    obtain ⟨v, hv, hsv⟩ := hc
    have hrun : run = (.error refusal, v.sink) := transfer_refused hv
    rw [hrun, hsv, if_pos hlt]
    exact ⟨by simp [Sink.cut, Sink.contents], rfl⟩

end SpiceDeck
