import Mathlib.Data.List.DropRight
import Mathlib.Data.List.SplitBy
import SpiceDeck.Layout.Reflow
import SpiceDeck.Proofs.Layout.FirstFit
import SpiceDeck.Proofs.Text.Columns
import SpiceDeck.Proofs.Text.Lines

/-!
# Filling lines with a text

A library that fills lines works on the text as it stands: it leaves a text alone that is short in
bytes, and of any other it puts the pieces on lines one by one and cuts the lines out of the text by
their lengths. On a text with single spaces that is plain first fit (`wrapBy_is_firstFit`).
-/

namespace SpiceDeck

open Text Utf8

/-! ## The library -/

/-- A word and the spaces behind it. -/
structure Piece where
  word : Text
  spaces : Text
  deriving DecidableEq

namespace Piece

def ofText (t : Text) : Piece := ⟨t.takeWhile (· != ' '), t.dropWhile (· != ' ')⟩

def text (p : Piece) : Text := p.word ++ p.spaces

/-- The length of pieces that stand side by side. -/
def size (line : List Piece) : Nat := (line.flatMap text).length

/-- The spaces behind the last piece. -/
def trail (line : List Piece) : Text := (line.getLast?.map spaces).getD []

end Piece

/-- The text cut behind every run of spaces. -/
def pieces (t : Text) : List Piece :=
  (t.splitBy fun a b => a != ' ' || b == ' ').map Piece.ofText

/-- Puts pieces on lines one by one. The lines in `done` are full, and the pieces in `line` take `used`
columns with their spaces; a piece whose word does not fit behind others begins the next line. -/
def place (limit : Nat → Nat) (done : List (List Piece)) (line : List Piece) (used : Nat) :
    List Piece → List (List Piece)
  | [] => done ++ [line]
  | p :: ps =>
    if limit done.length < used + columns p.word ∧ line ≠ [] then
      place limit (done ++ [line]) [p] (columns p.word + p.spaces.length) ps
    else place limit done (line ++ [p]) (used + columns p.word + p.spaces.length) ps

/-- Cuts lines of pieces out of a text by their lengths, without the spaces behind each. -/
def slices (t : Text) : List (List Piece) → List Text
  | [] => []
  | line :: rest =>
    t.take (Piece.size line - (Piece.trail line).length) :: slices (t.drop (Piece.size line)) rest

def putIndents (initial subsequent : Text) : List Text → List Text
  | [] => []
  | line :: rest => (initial ++ line) :: rest.map (subsequent ++ ·)

/-- What is left of the width beside the indent of each line. -/
def limits (width : Nat) (initial subsequent : Text) (i : Nat) : Nat :=
  width - columns (if i = 0 then initial else subsequent)

/-- A function that fills lines with a text, given the width and the indents of the first line and of
the later ones. -/
abbrev Filler := Text → Nat → Text → Text → List Text

/-- What a library says of its filler, for a text of one line. -/
structure FillsFirstFit (fill : Filler) : Prop where
  /-- A text of fewer bytes than the width, without an indent, is a line as it is. -/
  short : ∀ t width subsequent, '\n' ∉ t → (encode t).length < width →
    fill t width [] subsequent = [t.rdropWhile (· == ' ')]
  /-- The pieces of any other text are put on lines, which are cut out of it. -/
  long : ∀ t width initial subsequent, '\n' ∉ t → t ≠ [] →
    ¬ (initial = [] ∧ (encode t).length < width) →
    fill t width initial subsequent =
      putIndents initial subsequent
        (slices t (place (limits width initial subsequent) [] [] 0 (pieces t)))

/-- Wrapping by a library: the words of the text with single spaces, unless there are none. -/
def wrapBy (fill : Filler) (text : Text) (width : Nat) (initial subsequent : Text) : List Text :=
  if Text.normalize text = [] then [] else fill (Text.normalize text) width initial subsequent

/-! ## Pieces of words with single spaces -/

/-- The words of a text, each but the last with a space behind it. -/
def spaced : List Text → List Piece
  | [] => []
  | [w] => [⟨w, []⟩]
  | w :: v :: ws => ⟨w, [' ']⟩ :: spaced (v :: ws)

theorem ne_space {w : Text} (h : IsWord w) : ∀ c ∈ w, c ≠ ' ' := by
  rintro c hc rfl
  have := h.2 _ hc
  rw [isBlank_space] at this
  cases this

theorem ofText_word {w : Text} (h : IsWord w) {s : Text} (hs : s.head?.all (· == ' ') = true) :
    Piece.ofText (w ++ s) = ⟨w, s⟩ := by
  have hw : ∀ c ∈ w, (c != ' ') = true := fun c hc => by simpa using ne_space h c hc
  have ht : s.takeWhile (· != ' ') = [] ∧ s.dropWhile (· != ' ') = s := by
    cases s with
    | nil => exact ⟨rfl, rfl⟩
    | cons c s =>
      have hc : c = ' ' := by simpa using hs
      subst hc
      exact ⟨rfl, rfl⟩
  rw [Piece.ofText, List.takeWhile_append_of_pos hw, List.dropWhile_append_of_pos hw, ht.1, ht.2,
    List.append_nil]

/-- Behind no character of a word but behind its space a text may be cut. -/
theorem pieces_word {w : Text} (h : IsWord w) {s : Text}
    (hs : s.IsChain fun a b => (a != ' ' || b == ' ') = true) (hsp : s.head?.all (· == ' ') = true)
    {t : Text} (hcut : ∀ a ∈ (w ++ s).getLast?, ∀ b ∈ t.head?, (a != ' ' || b == ' ') = false) :
    pieces (w ++ s ++ t) = ⟨w, s⟩ :: pieces t := by
  have hchain : (w ++ s).IsChain fun a b => (a != ' ' || b == ' ') = true := by
    have hw := ne_space h
    clear h hsp hcut
    induction w with
    | nil => exact hs
    | cons c w ih =>
      refine List.isChain_cons.mpr ⟨fun b _ => ?_, ih fun d hd => hw d (List.mem_cons_of_mem _ hd)⟩
      simp [hw c (List.mem_cons_self ..)]
  have hne : w ++ s ≠ [] := fun e => h.1 (List.append_eq_nil_iff.mp e).1
  rw [pieces, List.splitBy_append hcut, List.splitBy_of_isChain hne hchain, List.map_append,
    List.map_singleton, ofText_word h hsp]
  rfl

theorem pieces_joinWords {ws : List Text} (h : ∀ w ∈ ws, IsWord w) :
    pieces (joinWords ws) = spaced ws := by
  induction ws with
  | nil => rfl
  | cons w ws ih =>
    have hw := h w (List.mem_cons_self ..)
    have ih := ih fun v hv => h v (List.mem_cons_of_mem _ hv)
    cases ws with
    | nil =>
      have := pieces_word hw (s := []) (t := []) .nil rfl (by simp)
      rw [List.append_nil, List.append_nil] at this
      rw [joinWords_singleton, this]
      rfl
    | cons v ws =>
      have hv := h v (List.mem_cons_of_mem _ (List.mem_cons_self ..))
      have hcut : ∀ a ∈ (w ++ [' ']).getLast?, ∀ b ∈ (joinWords (v :: ws)).head?,
          (a != ' ' || b == ' ') = false := by
        intro a ha b hb
        rw [head?_joinWords hv] at hb
        have := ne_space hv b (List.mem_of_head? hb)
        simp only [List.getLast?_concat, Option.mem_some] at ha
        simp [← ha, this]
      rw [joinWords_cons w (List.cons_ne_nil v ws), spaced, ← ih, ← List.singleton_append,
        ← List.append_assoc]
      exact pieces_word hw (.singleton ' ') rfl hcut

theorem map_word_spaced (ws : List Text) : (spaced ws).map Piece.word = ws := by
  induction ws with
  | nil => rfl
  | cons w ws ih =>
    cases ws with
    | nil => rfl
    | cons v ws => rw [spaced, List.map_cons, ih]

/-- Only the last piece may be without a space. -/
def Spaced (ps : List Piece) : Prop := ps.IsChain fun p _ => p.spaces = [' ']

theorem spaced_spaced (ws : List Text) : Spaced (spaced ws) := by
  induction ws with
  | nil => exact .nil
  | cons w ws ih =>
    cases ws with
    | nil => exact .singleton _
    | cons v ws => exact List.isChain_cons.mpr ⟨fun _ _ => rfl, ih⟩

/-! ## Lines of pieces -/

theorem place_flatten (limit : Nat → Nat) (done : List (List Piece)) (line : List Piece) (used : Nat)
    (ps : List Piece) :
    (place limit done line used ps).flatten = done.flatten ++ line ++ ps := by
  induction ps generalizing done line used with
  | nil => simp [place]
  | cons p ps ih =>
    rw [place]
    split <;> simp [ih]

/-- A last piece without a space is like one with a space, since nothing comes behind it. -/
theorem flow_spaces (later limit used : Nat) {p : Piece} {ps : List Piece} (hs : Spaced (p :: ps)) :
    flow later limit (used + p.spaces.length) (ps.map Piece.word) =
      flow later limit (used + 1) (ps.map Piece.word) := by
  cases ps with
  | nil => rfl
  | cons q ps =>
    rw [show p.spaces = [' '] from (List.isChain_cons_cons.mp hs).1]
    rfl

theorem place_words {limit : Nat → Nat} {later : Nat} (hl : ∀ i, limit (i + 1) = later)
    {ps : List Piece} (hs : Spaced ps) {done : List (List Piece)} {line : List Piece} {used : Nat}
    (hne : line ≠ []) :
    (place limit done line used ps).map (List.map Piece.word) =
      done.map (List.map Piece.word) ++
        (line.map Piece.word ++ (flow later (limit done.length) used (ps.map Piece.word)).1) ::
          (flow later (limit done.length) used (ps.map Piece.word)).2 := by
  induction ps generalizing done line used with
  | nil => simp [place, flow]
  | cons p ps ih =>
    rw [place, List.map_cons, flow]
    by_cases hw : used + columns p.word ≤ limit done.length
    · rw [if_neg (by omega), if_pos hw, ih hs.tail (by simp), flow_spaces _ _ _ hs]
      simp
    · rw [if_pos ⟨by omega, hne⟩, if_neg hw, ih hs.tail (List.cons_ne_nil p []), List.length_append,
        List.length_singleton, hl, flow_spaces _ _ _ hs]
      simp

/-- **Lines of pieces are lines of words.** -/
theorem place_pack {limit : Nat → Nat} {later : Nat} (hl : ∀ i, limit (i + 1) = later)
    {ps : List Piece} (hs : Spaced ps) (hne : ps ≠ []) :
    (place limit [] [] 0 ps).map (List.map Piece.word) =
      pack (limit 0) later (ps.map Piece.word) := by
  obtain ⟨p, ps, rfl⟩ := List.exists_cons_of_ne_nil hne
  have hs' : Spaced ps := hs.tail
  rw [place, if_neg (by simp), List.nil_append, place_words hl hs' (List.cons_ne_nil p []),
    flow_spaces _ _ _ hs, Nat.zero_add]
  rfl

/-! ## Lines cut out of the text -/

theorem text_ofText (t : Text) : (Piece.ofText t).text = t := List.takeWhile_append_dropWhile

theorem flatMap_text_pieces (t : Text) : (pieces t).flatMap Piece.text = t := by
  simp only [pieces, List.flatMap_map, text_ofText, List.flatMap_id', List.flatten_splitBy]

theorem flatMap_text_line {line : List Piece} (h : Spaced line) :
    line.flatMap Piece.text = joinWords (line.map Piece.word) ++ Piece.trail line := by
  induction line with
  | nil => rfl
  | cons p line ih =>
    cases line with
    | nil => simp [Piece.text, Piece.trail]
    | cons q line =>
      obtain ⟨hp, h⟩ := List.isChain_cons_cons.mp h
      have hjoin : joinWords ((p :: q :: line).map Piece.word) =
          p.word ++ ' ' :: joinWords ((q :: line).map Piece.word) :=
        joinWords_cons p.word (List.cons_ne_nil _ _)
      rw [List.flatMap_cons, ih h, hjoin, Piece.text, hp, Piece.trail, Piece.trail,
        List.getLast?_cons_cons]
      simp only [List.append_assoc, List.cons_append, List.nil_append]

theorem slices_words {lines : List (List Piece)} (h : ∀ line ∈ lines, Spaced line) :
    slices (lines.flatten.flatMap Piece.text) lines =
      (lines.map (List.map Piece.word)).map joinWords := by
  induction lines with
  | nil => rfl
  | cons line rest ih =>
    obtain ⟨hl, hr⟩ := List.forall_mem_cons.mp h
    have htext := flatMap_text_line hl
    have hsize : (line.flatMap Piece.text).length = Piece.size line := rfl
    have hlen : (joinWords (line.map Piece.word)).length =
        Piece.size line - (Piece.trail line).length := by
      rw [← hsize, htext, List.length_append]
      omega
    rw [slices, List.flatten_cons, List.flatMap_append, List.drop_left' hsize, ih hr, htext,
      List.append_assoc, List.take_left' hlen]
    rfl

theorem putIndents_joinWords (initial subsequent : Text) (lines : List (List Text)) :
    putIndents initial subsequent (lines.map joinWords) =
      indentLines initial subsequent lines := by
  cases lines with
  | nil => rfl
  | cons line rest => simp [putIndents, indentLines]

/-- **Filling is packing**: the pieces put on lines and cut out of the text are its words packed. -/
theorem putIndents_slices {ws : List Text} (h : ∀ w ∈ ws, IsWord w) (hne : ws ≠ []) (width : Nat)
    (initial subsequent : Text) :
    putIndents initial subsequent (slices (joinWords ws)
        (place (limits width initial subsequent) [] [] 0 (pieces (joinWords ws)))) =
      indentLines initial subsequent
        (pack (width - columns initial) (width - columns subsequent) ws) := by
  have hp := pieces_joinWords h
  generalize hlines : place (limits width initial subsequent) [] [] 0 (pieces (joinWords ws)) = lines
  have hflat : lines.flatten = pieces (joinWords ws) := by rw [← hlines, place_flatten]; rfl
  have hspaced : ∀ line ∈ lines, Spaced line := fun line hl => by
    obtain ⟨before, behind, he⟩ := List.infix_of_mem_flatten hl
    have hws := spaced_spaced ws
    rw [← hp, ← hflat, ← he] at hws
    exact hws.left_of_append.right_of_append
  have hwords : lines.map (List.map Piece.word) =
      pack (width - columns initial) (width - columns subsequent) ws := by
    have hnil : spaced ws ≠ [] := fun he => hne (by rw [← map_word_spaced ws, he]; rfl)
    have hlater : ∀ i, limits width initial subsequent (i + 1) = width - columns subsequent :=
      fun _ => rfl
    rw [← hlines, hp, place_pack hlater (spaced_spaced ws) hnil, map_word_spaced]
    rfl
  rw [← putIndents_joinWords, ← hwords, ← slices_words hspaced, hflat, flatMap_text_pieces]

/-! ## Short texts -/

theorem spread_le_bytes (ws : List Text) : spread ws ≤ (encode (joinWords ws)).length + 1 := by
  induction ws with
  | nil => exact Nat.zero_le _
  | cons w ws ih =>
    have hw := columns_le_bytes w
    cases ws with
    | nil => simpa using hw
    | cons v ws =>
      have hspace : (String.utf8EncodeChar ' ').length = 1 := by decide
      rw [joinWords_cons w (List.cons_ne_nil v ws), spread_cons, encode_append, encode_cons,
        List.length_append, List.length_append, hspace]
      omega

/-- Words of fewer bytes than the width, their spaces included, stand on one line. -/
theorem pack_short {ws : List Text} (hne : ws ≠ []) {width : Nat}
    (h : (encode (joinWords ws)).length < width) (later : Nat) : pack width later ws = [ws] := by
  refine (firstFit_iff.mp ⟨List.flatten_singleton, hne, fun vs w more he _ => ?_, ?_, trivial⟩).symm
  · have := spread_le_bytes ws
    rw [he, spread_append, spread_cons, ← he] at this
    rw [Fits]
    omega
  · simp

theorem rdropWhile_joinWords {ws : List Text} (h : ∀ w ∈ ws, IsWord w) :
    (joinWords ws).rdropWhile (· == ' ') = joinWords ws := by
  refine List.rdropWhile_eq_self_iff.mpr fun hne hc => ?_
  have := getLast?_joinWords h _ (List.getLast?_eq_some_getLast hne)
  rw [eq_of_beq hc, isBlank_space] at this
  cases this

/-! ## Wrapping -/

theorem wrapBy_eq {fill : Filler} (h : FillsFirstFit fill) (text : Text) (width : Nat)
    (initial subsequent : Text) :
    wrapBy fill text width initial subsequent = wrapWords text width initial subsequent := by
  have hword : ∀ w ∈ words text, IsWord w := fun _ => isWord_of_mem_words
  rw [wrapBy, wrapWords, Text.normalize]
  by_cases hne : words text = []
  · rw [hne]
    rfl
  have hnl : '\n' ∉ joinWords (words text) := not_mem_joinWords hword isBlank_newline (by decide)
  have hjoin : joinWords (words text) ≠ [] := fun he => hne (by
    rw [← words_joinWords hword, he, words_nil])
  rw [if_neg hjoin]
  by_cases hshort : initial = [] ∧ (encode (joinWords (words text))).length < width
  · obtain ⟨rfl, hlt⟩ := hshort
    rw [h.short _ _ _ hnl hlt, rdropWhile_joinWords hword,
      show width - columns [] = width from rfl, pack_short hne hlt]
    rfl
  · rw [h.long _ _ _ _ hnl hjoin hshort, putIndents_slices hword hne]

theorem wrapWords_eq_nil_iff {text : Text} {width : Nat} {initial subsequent : Text} :
    wrapWords text width initial subsequent = [] ↔ words text = [] := by
  rw [wrapWords]
  cases words text with
  | nil => exact iff_of_true rfl rfl
  | cons w ws => exact iff_of_false (List.cons_ne_nil _ _) (List.cons_ne_nil _ _)

theorem indent_ofStatement (text : Text) :
    (Marker.ofStatement text).indent =
      if (words text).head?.bind List.head? = some '*' then ['*', '+', ' '] else ['+', ' '] := by
  rw [Marker.ofStatement, head?_trimLeft]
  exact apply_ite Marker.indent ..

/-- **Wrapping is first fit.** With a library that fills lines as `FillsFirstFit` says, wrapping a text
gives no line if it has no word, and else the one cut of its words that is made by first fit, each line
behind its indent. A statement is wrapped so behind its continuation marker. -/
theorem wrapBy_is_firstFit {fill : Filler} (h : FillsFirstFit fill) (text : Text) (width : Nat)
    (initial subsequent : Text) :
    wrapBy fill text width initial subsequent = wrapWords text width initial subsequent ∧
      (wrapWords text width initial subsequent = [] ↔ words text = []) ∧
      (∃ lines, wrapWords text width initial subsequent = indentLines initial subsequent lines ∧
        ∀ ls, ls.flatten = words text ∧
          FirstFit (width - columns subsequent) (width - columns initial) ls ↔ ls = lines) ∧
      ∀ lineWidth : LineWidth, wrapStatement lineWidth text =
        wrapBy fill text lineWidth.columns []
          (if (words text).head?.bind List.head? = some '*' then ['*', '+', ' '] else ['+', ' ']) := by
  refine ⟨wrapBy_eq h .., wrapWords_eq_nil_iff, ⟨_, rfl, fun _ => firstFit_iff⟩, fun lineWidth => ?_⟩
  rw [wrapBy_eq h, ← indent_ofStatement, wrapStatement]

/-- A filler that does what `FillsFirstFit` says and no more. -/
def fillFirstFit : Filler := fun t width initial subsequent =>
  if initial = [] ∧ (encode t).length < width then [t.rdropWhile (· == ' ')]
  else putIndents initial subsequent
    (slices t (place (limits width initial subsequent) [] [] 0 (pieces t)))

theorem fillsFirstFit_fillFirstFit : FillsFirstFit fillFirstFit where
  short _ _ _ _ h := if_pos ⟨rfl, h⟩
  long _ _ _ _ _ _ h := if_neg h

/-- The first line takes all its five columns and has seven bytes. -/
theorem wrapBy_is_firstFit_micro :
    FillsFirstFit fillFirstFit ∧
      wrapBy fillFirstFit "µA  µB µC".toList 5 [] "+ ".toList = ["µA µB".toList, "+ µC".toList] :=
  ⟨fillsFirstFit_fillFirstFit,
    (wrapBy_is_firstFit fillsFirstFit_fillFirstFit _ _ _ _).1.trans (by decide)⟩

end SpiceDeck
