import SpiceDeck.Device.Source

/-!
# Lines from a source

A `LineFeed` decodes the lines of a source one by one, trims them and passes over the blank ones. It
goes on after a fault and after an end.
-/

namespace SpiceDeck

structure LineFeed where
  source : Source
  /-- Lines read well so far, the blank ones included. -/
  linesRead : Nat := 0

namespace LineFeed

def ofSource (source : Source) : LineFeed := { source }

/-- The next line that is not blank, trimmed; none at an end. A line that is no UTF-8 is a fault and
is passed over. -/
def next (f : LineFeed) : Except Fault (Option Text) × LineFeed :=
  match _h : f.source.readLine with
  | (.error fault, source) => (.error fault, { f with source })
  | (.ok [], source) => (.ok none, { f with source })
  | (.ok (b :: bs), source) =>
    match Utf8.decode (b :: bs) with
    | none => (.error .invalidUtf8, { f with source })
    | some text =>
      let feed : LineFeed := ⟨source, f.linesRead + 1⟩
      let line := Text.trim text
      if line.isEmpty then feed.next else (.ok (some line), feed)
termination_by f.source.weight
decreasing_by
  have := Source.readLine_weight _h
  simp only [List.length_cons] at this ⊢
  omega

theorem next_weight {f f' : LineFeed} {line : Text} (h : f.next = (.ok (some line), f')) :
    f'.source.weight < f.source.weight := by
  fun_induction next f with
  | case1 | case2 | case3 => cases h
  | case4 f b bs source hr text ht feed line' hb ih =>
    have := Source.readLine_weight hr
    have := ih h
    simp only [List.length_cons, feed] at *
    omega
  | case5 f b bs source hr text ht feed line' hb =>
    obtain ⟨-, rfl⟩ := Prod.mk.inj h
    have := Source.readLine_weight hr
    simp only [List.length_cons, feed] at this ⊢
    omega

end LineFeed

end SpiceDeck
