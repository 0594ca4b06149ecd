import SpiceDeck.Device.LineFeed
import SpiceDeck.Proofs.Text.Lines
import SpiceDeck.Proofs.Text.Utf8

/-!
# Sources that bring a text

`Source.bytes?` says what a source brings if it never fails. However the bytes come in answers,
`readLine` takes them up to the newline (`readLine_bytes`), and so a line feed gives the lines of
the text, trimmed and without the blank ones (`next_lines`).
-/

namespace SpiceDeck

/-- The bytes of answers of which none fails and none but an end comes after an end. -/
def bytesOf : List Answer → Option Bytes
  | [] => some []
  | .failure _ :: _ => none
  | .interrupted :: rest => bytesOf rest
  | .bytes data :: rest =>
    match bytesOf rest with
    | none => none
    | some more => if data = [] ∧ more ≠ [] then none else some (data ++ more)

theorem bytesOf_bytes {data : Bytes} {rest : List Answer} {d : Bytes}
    (h : bytesOf (.bytes data :: rest) = some d) :
    ∃ more, bytesOf rest = some more ∧ d = data ++ more ∧ (data = [] → d = []) := by
  rw [bytesOf] at h
  cases hm : bytesOf rest with
  | none => rw [hm] at h; cases h
  | some more =>
    simp only [hm] at h
    split at h
    · cases h
    · rename_i hn
      obtain rfl := Option.some.inj h
      refine ⟨more, rfl, rfl, fun hd => ?_⟩
      subst hd
      exact Decidable.byContradiction fun hne => hn ⟨rfl, hne⟩

theorem bytesOf_cons {data : Bytes} (hd : data ≠ []) {rest : List Answer} {more : Bytes}
    (h : bytesOf rest = some more) : bytesOf (.bytes data :: rest) = some (data ++ more) := by
  simp [bytesOf, h, hd]

namespace Source

/-- What the source brings; none if a read may fail, or if bytes come after an end. -/
def bytes? (s : Source) : Option Bytes := (bytesOf s.answers).map (s.buffered ++ ·)

/-- The text that the source brings; none also if the bytes are no UTF-8. -/
def text? (s : Source) : Option Text := s.bytes?.bind Utf8.decode

theorem bytes?_of_text? {s : Source} {t : Text} (h : s.text? = some t) :
    s.bytes? = some (Utf8.encode t) := by
  obtain ⟨d, hd, ht⟩ := Option.bind_eq_some_iff.mp h
  rw [hd, Utf8.decode_eq_some_iff.mp ht]

theorem text?_of_bytes? {s : Source} {t : Text} (h : s.bytes? = some (Utf8.encode t)) :
    s.text? = some t := by
  rw [text?, h, Option.bind_some, Utf8.decode_encode]

theorem bytes?_ofBytes (data : Bytes) : (ofBytes data).bytes? = some data := by
  simp [bytes?, ofBytes, ofAnswers, bytesOf]

theorem text?_ofBytes_encode (t : Text) : (ofBytes (Utf8.encode t)).text? = some t :=
  text?_of_bytes? (bytes?_ofBytes _)

/-! ## Reads -/

theorem readAnswer_bytes {n : Nat} (hn : 0 < n) {answers : List Answer} {d : Bytes}
    (h : bytesOf answers = some d) :
    ∃ data rest more, readAnswer n answers = (.ok data, rest) ∧ bytesOf rest = some more ∧
      d = data ++ more ∧ (data = [] → d = []) := by
  fun_induction readAnswer n answers with
  | case1 =>
    obtain rfl := Option.some.inj h
    exact ⟨[], [], [], rfl, rfl, rfl, fun _ => rfl⟩
  | case2 rest ih => exact ih h
  | case3 => cases h
  | case4 data rest =>
    obtain ⟨more, hm, rfl, hz⟩ := bytesOf_bytes h
    cases hd : data.drop n with
    | nil =>
      have ht : data.take n = data := List.take_of_length_le (List.drop_eq_nil_iff.mp hd)
      exact ⟨data, rest, more, by rw [ht], hm, rfl, hz⟩
    | cons b bs =>
      have hcut : data = data.take n ++ b :: bs := by rw [← hd, List.take_append_drop]
      refine ⟨data.take n, _, b :: bs ++ more, rfl, bytesOf_cons (List.cons_ne_nil b bs) hm, ?_,
        fun h0 => ?_⟩
      · rw [← List.append_assoc, ← hcut]
      · rw [List.take_eq_nil_iff] at h0
        exact hz (h0.resolve_left (by omega))

theorem fill_bytes {s : Source} {d : Bytes} (h : s.bytes? = some d) :
    ∃ data s', s.fill = (.ok data, s') ∧ (data = [] → d = []) ∧ s'.bytes? = some d := by
  obtain ⟨rest, hr, rfl⟩ := Option.map_eq_some_iff.mp h
  unfold fill
  split
  · rename_i hb
    obtain ⟨data, answers, more, ha, hm, hd, hz⟩ := readAnswer_bytes s.capacity_pos hr
    simp only [ha, hb, List.nil_append]
    exact ⟨data, _, rfl, hz, by simp [bytes?, hm, hd, Except.toOption]⟩
  · rename_i hb
    exact ⟨s.buffered, s, rfl, fun h0 => absurd h0 hb, h⟩

theorem bne_newline {l : Bytes} (h : newline ∉ l) : ∀ b ∈ l, (b != newline) = true := by
  intro b hb
  rw [bne_iff_ne]
  rintro rfl
  exact h hb

theorem takeWhile_newline {l : Bytes} (h : newline ∉ l) (m : Bytes) :
    (l ++ newline :: m).takeWhile (· != newline) = l := by
  rw [List.takeWhile_append_of_pos (bne_newline h)]
  simp

theorem dropWhile_newline {l : Bytes} (h : newline ∉ l) (m : Bytes) :
    (l ++ newline :: m).dropWhile (· != newline) = newline :: m := by
  rw [List.dropWhile_append_of_pos (bne_newline h)]
  simp

theorem newline_not_mem_takeWhile (d : Bytes) : newline ∉ d.takeWhile (· != newline) := by
  intro h
  have := List.all_eq_true.mp List.all_takeWhile _ h
  simp at this

theorem eq_of_dropWhile_cons {d more : Bytes} {c : UInt8}
    (h : d.dropWhile (· != newline) = c :: more) :
    d = d.takeWhile (· != newline) ++ newline :: more := by
  obtain rfl : c = newline := by
    have := List.head?_dropWhile_not (· != newline) d
    rw [h] at this
    simpa using this
  rw [← h, List.takeWhile_append_dropWhile]

theorem newline_not_mem_of_dropWhile {d : Bytes} (h : d.dropWhile (· != newline) = []) :
    newline ∉ d := by
  have := newline_not_mem_takeWhile d
  rwa [← List.append_nil (List.takeWhile ..), ← h, List.takeWhile_append_dropWhile] at this

/-- **One line.** However the answers cut the bytes, a line takes them up to its newline. -/
theorem readLineFrom_bytes (taken : Bytes) (s : Source) {d : Bytes} (h : s.bytes? = some d) :
    ∃ s', readLineFrom taken s =
        (.ok (taken ++ d.takeWhile (· != newline) ++ (d.dropWhile (· != newline)).take 1), s') ∧
      s'.bytes? = some ((d.dropWhile (· != newline)).drop 1) := by
  fun_induction readLineFrom taken s generalizing d with
  | case1 taken s fault s' hf =>
    obtain ⟨data, s'', hf', -⟩ := fill_bytes h
    rw [hf] at hf'; cases hf'
  | case2 taken s s' hf =>
    obtain ⟨data, s'', hf', hz, hb⟩ := fill_bytes h
    rw [hf] at hf'; cases hf'
    obtain rfl := hz rfl
    exact ⟨s', by simp, hb⟩
  | case3 taken s b bs s' hf c more hd =>
    obtain ⟨data, s'', hf', -, hb⟩ := fill_bytes h
    rw [hf] at hf'; cases hf'
    obtain ⟨m, hm, rfl⟩ := Option.map_eq_some_iff.mp hb
    have hl := newline_not_mem_takeWhile (b :: bs)
    have hcut : s'.buffered ++ m = (b :: bs).takeWhile (· != newline) ++ newline :: (more ++ m) := by
      rw [(fill_ok hf).1, ← List.cons_append, ← List.append_assoc, ← eq_of_dropWhile_cons hd]
    rw [hcut, takeWhile_newline hl, dropWhile_newline hl]
    exact ⟨_, rfl, by simp [bytes?, hm]⟩
  | case4 taken s b bs s' hf hd ih =>
    obtain ⟨data, s'', hf', -, hb⟩ := fill_bytes h
    rw [hf] at hf'; cases hf'
    obtain ⟨m, hm, rfl⟩ := Option.map_eq_some_iff.mp hb
    have hall := bne_newline (newline_not_mem_of_dropWhile hd)
    have hb' : bytes? { s' with buffered := [] } = some m := by simp [bytes?, hm]
    obtain ⟨s₂, he, hb₂⟩ := ih hb'
    refine ⟨s₂, ?_, ?_⟩
    · rw [(fill_ok hf).1, List.takeWhile_append_of_pos hall, List.dropWhile_append_of_pos hall, he,
        ← List.append_assoc]
    · rw [(fill_ok hf).1, List.dropWhile_append_of_pos hall, hb₂]

end Source

/-! ## Lines of a text -/

namespace LineFeed

open Source Utf8

/-- A text that is not empty begins with a line; a source gives up just its bytes. -/
theorem first_line {t : Text} (ht : t ≠ []) :
    ∃ p r x, p ≠ [] ∧ t = p ++ r ∧ Text.lines t = x :: Text.lines r ∧ Text.trim x = Text.trim p ∧
      ∀ s : Source, s.bytes? = some (encode t) →
        ∃ s', s.readLine = (.ok (encode p), s') ∧ s'.bytes? = some (encode r) := by
  by_cases hn : '\n' ∈ t
  · obtain ⟨l, r, rfl, hl⟩ := List.eq_append_cons_of_mem hn
    refine ⟨l ++ ['\n'], r, Text.dropReturn l, by simp, by simp, Text.lines_append_newline hl r, ?_,
      fun s hs => ?_⟩
    · rw [Text.trim_dropReturn, Text.trim_append_blank l Text.isBlank_newline]
    · obtain ⟨s', he, hb⟩ := readLineFrom_bytes [] s hs
      have hl' : newline ∉ encode l := fun hb => hl (newline_mem_encode.mp hb)
      have hcut : encode (l ++ '\n' :: r) = encode l ++ newline :: encode r := by
        rw [encode_append, encode_cons]
        rfl
      rw [hcut, takeWhile_newline hl', dropWhile_newline hl'] at he
      rw [hcut, dropWhile_newline hl'] at hb
      exact ⟨s', by rw [readLine, he, encode_append]; rfl, hb⟩
  · refine ⟨t, [], t, ht, by simp, by simp [Text.lines_of_not_mem hn ht], rfl, fun s hs => ?_⟩
    obtain ⟨s', he, hb⟩ := readLineFrom_bytes [] s hs
    have hall := bne_newline fun hb => hn (newline_mem_encode.mp hb)
    have hcut : encode t = encode t ++ [] := by simp
    rw [hcut, List.takeWhile_append_of_pos hall, List.dropWhile_append_of_pos hall] at he
    rw [hcut, List.dropWhile_append_of_pos hall] at hb
    exact ⟨s', by rw [readLine, he]; simp, by simpa using hb⟩

theorem next_of_end {f : LineFeed} {s : Source} (h : f.source.readLine = (.ok [], s)) :
    f.next = (.ok none, { f with source := s }) := by
  rw [next]
  split
  · rename_i h'; rw [h] at h'; cases h'
  · rename_i h'; rw [h] at h'; cases h'; rfl
  · rename_i h'; rw [h] at h'; cases h'

theorem next_of_line {f : LineFeed} {s : Source} {p : Text} (hp : p ≠ [])
    (h : f.source.readLine = (.ok (encode p), s)) :
    f.next = if Text.trim p = [] then next ⟨s, f.linesRead + 1⟩
      else (.ok (some (Text.trim p)), ⟨s, f.linesRead + 1⟩) := by
  rw [next]
  split
  · rename_i h'; rw [h] at h'; cases h'
  · rename_i h'
    rw [h] at h'
    have he : encode p = [] := by injection (Prod.mk.inj h').1
    have := decode_encode p
    rw [he] at this
    exact absurd (Option.some.inj this).symm hp
  · rename_i b bs source h'
    rw [h] at h'
    have he : encode p = b :: bs := by injection (Prod.mk.inj h').1
    obtain rfl := (Prod.mk.inj h').2
    simp only [← he, decode_encode, List.isEmpty_iff]

/-- **The lines of a text.** A feed gives the first line that is not blank, trimmed, and goes on with
the lines behind it. -/
theorem next_lines {t : Text} : ∀ {f : LineFeed}, f.source.bytes? = some (encode t) →
    ∃ f' r, f.next = (.ok (Text.nextTrimmed (Text.lines t)).1, f') ∧
      f'.source.bytes? = some (encode r) ∧
      Text.lines r = (Text.nextTrimmed (Text.lines t)).2 ∧
      f'.linesRead + (Text.lines r).length = f.linesRead + (Text.lines t).length := by
  induction hn : t.length using Nat.strongRecOn generalizing t with
  | ind n ih =>
    intro f hf
    by_cases ht : t = []
    · subst ht
      obtain ⟨s', he, hb⟩ := readLineFrom_bytes [] f.source hf
      exact ⟨_, [], next_of_end he, hb, by simp [Text.nextTrimmed], rfl⟩
    · obtain ⟨p, r, x, hp, hcut, hlines, htrim, hread⟩ := first_line ht
      obtain ⟨s', he, hb⟩ := hread f.source hf
      have hlen : r.length < n := by
        have := List.length_pos_iff.mpr hp
        rw [← hn, hcut, List.length_append]
        omega
      rw [next_of_line hp he, hlines, Text.nextTrimmed, htrim]
      by_cases hb' : Text.trim p = []
      · obtain ⟨f', r', h1, h2, h3, h4⟩ := ih r.length hlen rfl (f := ⟨s', f.linesRead + 1⟩) hb
        rw [if_pos hb', if_pos (List.isEmpty_iff.mpr hb')]
        refine ⟨f', r', h1, h2, h3, ?_⟩
        simp only [h4, List.length_cons]
        omega
      · rw [if_neg hb', if_neg (fun he => hb' (List.isEmpty_iff.mp he))]
        refine ⟨_, r, rfl, hb, rfl, ?_⟩
        simp only [List.length_cons]
        omega

theorem next_text {t : Text} {f : LineFeed} (h : f.source.bytes? = some (encode t)) :
    ∃ f' r, f.next = (.ok (Text.trimmedLines (Text.lines t)).head?, f') ∧
      f'.source.bytes? = some (encode r) ∧
      Text.trimmedLines (Text.lines r) = (Text.trimmedLines (Text.lines t)).tail ∧
      f'.linesRead + (Text.lines r).length = f.linesRead + (Text.lines t).length ∧
      (Text.trimmedLines (Text.lines t) = [] → r = []) := by
  obtain ⟨f', r, hn, hb, hr, hc⟩ := next_lines h
  rw [Text.fst_nextTrimmed] at hn
  refine ⟨f', r, hn, hb, by rw [hr, Text.trimmedLines_nextTrimmed], hc, fun hl => ?_⟩
  rw [Text.nextTrimmed_of_blank hl] at hr
  exact Text.lines_eq_nil_iff.mp hr

/-! ## Bytes that are no text -/

theorem next_of_undecodable {f : LineFeed} {s : Source} {line : Bytes}
    (h : f.source.readLine = (.ok line, s)) (hne : line ≠ []) (hd : decode line = none) :
    f.next = (.error .invalidUtf8, { f with source := s }) := by
  rw [next]
  split
  · rename_i h'; rw [h] at h'; cases h'
  · rename_i h'; rw [h] at h'; cases h'; exact absurd rfl hne
  · rename_i h'
    rw [h] at h'
    cases h'
    rw [hd]

/-- **The line that is no UTF-8.** If the bytes are no text, a feed meets the fault at once, or it gives
a line and the bytes behind it are no text. -/
theorem next_undecodable {d : Bytes} (hd : decode d = none) :
    ∀ {f : LineFeed}, f.source.bytes? = some d →
      (∃ f', f.next = (.error .invalidUtf8, f')) ∨
        ∃ l f' r, f.next = (.ok (some l), f') ∧ f'.source.bytes? = some r ∧ decode r = none := by
  induction hn : d.length using Nat.strongRecOn generalizing d with
  | ind n ih =>
    intro f hf
    obtain ⟨s', he, hb⟩ := readLineFrom_bytes [] f.source hf
    rw [List.nil_append] at he
    generalize hline : d.takeWhile (· != newline) ++ (d.dropWhile (· != newline)).take 1 = line at he
    generalize hrest : (d.dropWhile (· != newline)).drop 1 = rest at hb
    have hcut : d = line ++ rest := by
      rw [← hline, ← hrest, List.append_assoc, List.take_append_drop,
        List.takeWhile_append_dropWhile]
    have hne : line ≠ [] := by
      rintro rfl
      rw [List.append_eq_nil_iff, List.take_eq_nil_iff] at hline
      have : d = [] := by
        rw [← List.takeWhile_append_dropWhile (p := (· != newline)) (l := d), hline.1,
          hline.2.resolve_left (by decide)]
        rfl
      rw [this] at hd
      cases hd
    cases hp : decode line with
    | none => exact .inl ⟨_, next_of_undecodable he hne hp⟩
    | some p =>
      obtain rfl := decode_eq_some_iff.mp hp
      have hpne : p ≠ [] := by rintro rfl; exact hne rfl
      rw [hcut, decode_encode_append, Option.map_eq_none_iff] at hd
      have hlen : rest.length < n := by
        have := List.length_pos_iff.mpr hne
        rw [← hn, hcut, List.length_append]
        omega
      rw [next_of_line hpne he]
      by_cases ht : Text.trim p = []
      · rw [if_pos ht]
        exact ih rest.length hlen hd rfl hb
      · rw [if_neg ht]
        exact .inr ⟨_, _, rest, rfl, hb, hd⟩

end LineFeed

end SpiceDeck
