import SpiceDeck.Proofs.Deck.Calls

/-!
# Reading and writing in turn

A transfer that takes one statement at a time, and writes it before it asks for the next, ends as one
that reads all first (`relay_transfer`): a source is read no further than the sink has followed, so a
refusal of the sink comes before a fault that the source still holds.
-/

namespace SpiceDeck

/-- How a transfer in turn ends, from a writer and a reader as they stand. -/
inductive Relay : Writer → Reader → Except Fault Report × Sink → Prop
  | done {w : Writer} {r r' : Reader} (ended : r.next = (none, r')) (flushed : w.finish = none) :
      Relay w r (.ok ⟨r'.linesRead, r'.counts, w.metrics⟩, w.sink)
  | unflushed {w : Writer} {r r' : Reader} {fault : Fault} (ended : r.next = (none, r'))
      (flush : w.finish = some fault) : Relay w r (.error fault, w.sink)
  | unread {w : Writer} {r r' : Reader} {fault : Fault}
      (read : r.next = (some (.error fault), r')) : Relay w r (.error fault, w.sink)
  | refused {w w' : Writer} {r r' : Reader} {s : Text} {fault : Fault}
      (read : r.next = (some (.ok s), r')) (write : w.write s = (some fault, w')) :
      Relay w r (.error fault, w'.sink)
  | written {w w' : Writer} {r r' : Reader} {s : Text} {result : Except Fault Report × Sink}
      (read : r.next = (some (.ok s), r')) (write : w.write s = (none, w'))
      (rest : Relay w' r' result) : Relay w r result

theorem Relay.unique {w : Writer} {r : Reader} {x y : Except Fault Report × Sink}
    (hx : Relay w r x) (hy : Relay w r y) : x = y := by
  induction hx with
  | done ended flushed => cases hy <;> simp_all
  | unflushed ended flush => cases hy <;> simp_all
  | unread read => cases hy <;> simp_all
  | refused read write => cases hy <;> simp_all
  | written read write rest ih =>
    cases hy with
    | written read' write' rest' =>
      rw [read] at read'
      cases read'
      rw [write] at write'
      cases write'
      exact ih rest'
    | _ => simp_all

theorem relay_toCome (ss : List Text) :
    ∀ {w : Writer} {r : Reader}, r.failed = false → r.toCome.statements.toList = ss →
      Relay w r (match w.writeAll ss with
        | (some fault, w') => (.error fault, w'.sink)
        | (none, w') => (conclude r.toCome w', w'.sink)) := by
  induction ss with
  | nil =>
    intro w r h hs
    have t := r.turn_next h
    generalize hx : r.next = x at t
    cases t with
    | statement reading hc => simp [hc, Reader.Contents.after] at hs
    | @fault fault r' failed nothing hc =>
      have hend : conclude r.toCome w = .error fault := by rw [conclude, hc]
      rw [Writer.writeAll]
      dsimp only
      rw [hend]
      exact .unread hx
    | @done r' reading hc same =>
      rw [Writer.writeAll]
      dsimp only
      cases hf : w.finish with
      | none =>
        have hend : conclude r.toCome w = .ok ⟨r'.linesRead, r'.counts, w.metrics⟩ := by
          simp only [conclude, hc, hf]
        rw [hend]
        exact .done hx hf
      | some fault =>
        have hend : conclude r.toCome w = .error fault := by simp only [conclude, hc, hf]
        rw [hend]
        exact .unflushed hx hf
  | cons s ss ih =>
    intro w r h hs
    have t := r.turn_next h
    generalize hx : r.next = x at t
    cases t with
    | statement reading hc =>
      rw [hc] at hs
      simp only [Reader.Contents.after, List.singleton_append, List.cons.injEq] at hs
      obtain ⟨rfl, hs⟩ := hs
      rw [Writer.writeAll, hc]
      cases hw : w.write _ with
      | mk fault w' =>
        cases fault with
        | some fault => exact .refused hx hw
        | none => exact .written hx hw (ih reading hs)
    | fault failed nothing hc => simp [nothing] at hs
    | done reading hc same => simp [hc] at hs

/-- **In turn or at once.** -/
theorem relay_transfer (layout : Layout) (options : Options) (source : Source) (sink : Sink) :
    Relay (Writer.ofSink layout sink) (Reader.ofSource options source)
      (transfer layout options source sink) := by
  have h := relay_toCome _ (w := Writer.ofSink layout sink) (r := Reader.ofSource options source)
    rfl rfl
  rw [← Reader.readAll_eq_toCome] at h
  rcases hw : (Writer.ofSink layout sink).writeAll
    (Reader.readAll options source).statements.toList with ⟨_ | fault, w⟩
  · rw [hw] at h
    rw [transfer_written hw]
    exact h
  · rw [hw] at h
    rw [transfer_refused hw]
    exact h

end SpiceDeck
