import SpiceDeck.Proofs.Text.Lines
import SpiceDeck.Proofs.Text.Utf8
import SpiceDeck.Query.Hierarchy

/-!
# Levels of a path

Between two calls a cursor has passed whole pieces of its path, each with the slash behind it
(`at_skip`), so its position is never inside a character. The calls give the pieces from the first on,
joined by slashes, and there is one level more than there are slashes (`hierarchy_exact`).
-/

namespace SpiceDeck

open Utf8

/-! ## Bytes and characters -/

theorem byteSize_eq (t : Text) : byteSize t = (encode t).length := by
  induction t with
  | nil => rfl
  | cons c t ih =>
    rw [byteSize, ih, encode_cons, List.length_append, String.length_utf8EncodeChar]

/-- Behind the bytes of a whole text a cut finds just this text. -/
theorem cutAtByte_append (before ahead : Text) :
    cutAtByte (before ++ ahead) (encode before).length = some (before, ahead) := by
  induction before with
  | nil => cases ahead <;> rfl
  | cons c before ih =>
    have hc := c.utf8Size_pos
    have hlen : (encode (c :: before)).length = c.utf8Size + (encode before).length := by
      rw [encode_cons, List.length_append, String.length_utf8EncodeChar]
    obtain ⟨n, hn⟩ : ∃ n, c.utf8Size + (encode before).length = n + 1 :=
      ⟨c.utf8Size + (encode before).length - 1, by omega⟩
    have hrest : n + 1 - c.utf8Size = (encode before).length := by omega
    rw [hlen, hn, List.cons_append, cutAtByte, if_pos (by omega), hrest, ih]
    rfl

namespace PathCursor

def ofPath (path : Text) : PathCursor := { path }

/-! ## Pieces -/

/-- What stands between the slashes of a path. -/
def pieces (path : Text) : List Text := path.splitOn separator

def joinPieces (ps : List Text) : Text := [separator].intercalate ps

/-- The pieces with a slash behind each. -/
def passed (ps : List Text) : Text := ps.flatMap fun p => p ++ [separator]

theorem pieces_ne_nil (path : Text) : pieces path ≠ [] := List.splitOn_ne_nil separator path

theorem joinPieces_pieces (path : Text) : joinPieces (pieces path) = path :=
  List.intercalate_splitOn separator

theorem take_pieces_ne_nil (path : Text) (k : Nat) : (pieces path).take (k + 1) ≠ [] := by
  rw [ne_eq, List.take_eq_nil_iff]
  simp [pieces_ne_nil]

theorem pieces_of_not_mem {p : Text} (h : separator ∉ p) : pieces p = [p] :=
  List.splitOn_eq_singleton h

theorem pieces_append {p : Text} (h : separator ∉ p) (path : Text) :
    pieces (p ++ separator :: path) = p :: pieces path :=
  List.splitOn_append_cons_self_of_not_mem h path

theorem length_pieces (path : Text) : (pieces path).length = path.count separator + 1 := by
  induction path using Text.pieces_induction separator with
  | last p hp => rw [pieces_of_not_mem hp, List.count_eq_zero_of_not_mem hp, List.length_singleton]
  | piece p path hp ih =>
    rw [pieces_append hp, List.length_cons, ih, List.count_append, List.count_eq_zero_of_not_mem hp,
      List.count_cons_self, Nat.zero_add]

theorem separator_not_mem_pieces {path q : Text} (h : q ∈ pieces path) : separator ∉ q := by
  induction path using Text.pieces_induction separator with
  | last p hp =>
    rw [pieces_of_not_mem hp] at h
    rw [List.mem_singleton.mp h]
    exact hp
  | piece p path hp ih =>
    rw [pieces_append hp] at h
    cases h with
    | head => exact hp
    | tail _ h => exact ih h

@[simp] theorem joinPieces_singleton (p : Text) : joinPieces [p] = p := List.intercalate_singleton

theorem joinPieces_cons (p : Text) {ps : List Text} (h : ps ≠ []) :
    joinPieces (p :: ps) = p ++ separator :: joinPieces ps := by
  rw [joinPieces, List.intercalate_cons_of_ne_nil h, List.append_assoc]
  rfl

theorem joinPieces_append (ls : List Text) {ms : List Text} (h : ms ≠ []) :
    joinPieces (ls ++ ms) = passed ls ++ joinPieces ms := by
  induction ls with
  | nil => rfl
  | cons l ls ih =>
    rw [List.cons_append, joinPieces_cons l (List.append_ne_nil_of_right_ne_nil ls h), ih]
    simp [passed]

theorem joinPieces_concat (ls : List Text) (p : Text) : joinPieces (ls ++ [p]) = passed ls ++ p := by
  rw [joinPieces_append ls (List.cons_ne_nil p []), joinPieces_singleton]

theorem passed_concat (ls : List Text) (p : Text) :
    passed (ls ++ [p]) = passed ls ++ (p ++ [separator]) := by
  simp [passed]

theorem passed_eq {ls : List Text} (h : ls ≠ []) : passed ls = joinPieces ls ++ [separator] := by
  rw [← List.dropLast_concat_getLast h, passed_concat, joinPieces_concat, List.append_assoc]

/-! ## One call -/

/-- The cursor has passed the pieces `done`, each with its slash, and those in `left` are left. -/
structure At (c : PathCursor) (done left : List Text) : Prop where
  path : c.path = passed done ++ joinPieces left
  position : c.position = some (encode (passed done)).length

section
variable {c : PathCursor} {done left : List Text} {piece : Text} (hp : separator ∉ piece)
include hp

theorem ne_separator : ∀ x ∈ piece, (x != separator) = true := by
  intro x hx
  rw [bne_iff_ne]
  rintro rfl
  exact hp hx

theorem At.next_between (h : c.At done (piece :: left)) (hleft : left ≠ []) :
    c.next.1 = some (joinPieces (done ++ [piece])) ∧ c.next.2.At (done ++ [piece]) left := by
  have hahead := joinPieces_cons piece hleft
  have htake : (piece ++ separator :: joinPieces left).takeWhile (· != separator) = piece := by
    rw [List.takeWhile_append_of_pos (ne_separator hp)]
    simp
  have hnext : c.next = (some (joinPieces (done ++ [piece])),
      { c with position := some ((encode (passed done)).length + byteSize piece + 1) }) := by
    simp only [next, h.position, h.path, hahead, cutAtByte_append, htake, joinPieces_concat]
    rw [if_pos (by simp)]
  rw [hnext]
  refine ⟨rfl, ?_, ?_⟩
  · rw [passed_concat, h.path, hahead]
    simp
  · rw [passed_concat, encode_append, encode_append, List.length_append, List.length_append,
      byteSize_eq]
    rfl

theorem At.next_last (h : c.At done [piece]) :
    c.next = (some (joinPieces (done ++ [piece])), { c with position := none }) := by
  have htake : (piece ++ []).takeWhile (· != separator) = piece ++ [] :=
    List.takeWhile_append_of_pos (ne_separator hp)
  rw [List.append_nil] at htake
  simp only [next, h.position, h.path, joinPieces_singleton, cutAtByte_append, htake]
  rw [if_neg (by omega), joinPieces_concat]

end

theorem next_of_end {c : PathCursor} (h : c.position = none) : c.next = (none, c) := by
  simp only [next, h]

/-! ## Call after call -/

/-- The cursor after a number of calls. -/
def skip (c : PathCursor) : Nat → PathCursor
  | 0 => c
  | k + 1 => c.next.2.skip k

theorem skip_succ (c : PathCursor) (k : Nat) : c.skip (k + 1) = (c.skip k).next.2 := by
  induction k generalizing c with
  | zero => rfl
  | succ k ih => exact ih c.next.2

section
variable {path : Text} {k : Nat}

/-- **Where a cursor stands.** Each call passes one piece more, as long as there is one behind it. -/
theorem at_skip (hk : k < (pieces path).length) :
    ((ofPath path).skip k).At ((pieces path).take k) ((pieces path).drop k) := by
  induction k with
  | zero => exact ⟨(joinPieces_pieces path).symm, rfl⟩
  | succ k ih =>
    have hk' : k < (pieces path).length := by omega
    have hleft : (pieces path).drop (k + 1) ≠ [] := by
      rw [ne_eq, List.drop_eq_nil_iff]
      omega
    have h := ih hk'
    rw [List.drop_eq_getElem_cons hk'] at h
    rw [skip_succ, ← List.take_append_getElem hk']
    exact (h.next_between (separator_not_mem_pieces (List.getElem_mem hk')) hleft).2

theorem next_skip (hk : k < (pieces path).length) :
    ((ofPath path).skip k).next.1 = some (joinPieces ((pieces path).take (k + 1))) := by
  have h := at_skip hk
  have hp : separator ∉ (pieces path)[k] := separator_not_mem_pieces (List.getElem_mem hk)
  rw [List.drop_eq_getElem_cons hk] at h
  rw [← List.take_append_getElem hk]
  by_cases hleft : (pieces path).drop (k + 1) = []
  · rw [hleft] at h
    rw [h.next_last hp]
  · exact (h.next_between hp hleft).1

theorem position_of_end (hk : (pieces path).length ≤ k) :
    ((ofPath path).skip k).position = none := by
  induction k with
  | zero => exact absurd (List.length_eq_zero_iff.mp (Nat.le_zero.mp hk)) (pieces_ne_nil path)
  | succ k ih =>
    rw [skip_succ]
    by_cases hend : (pieces path).length ≤ k
    · rw [next_of_end (ih hend), ih hend]
    · -- the call before has given the whole path
      have hk' : k < (pieces path).length := by omega
      have h := at_skip hk'
      rw [List.drop_eq_getElem_cons hk', List.drop_of_length_le hk] at h
      rw [h.next_last (separator_not_mem_pieces (List.getElem_mem hk'))]

end

theorem path_next (c : PathCursor) : c.next.2.path = c.path := by
  unfold next
  split
  · rfl
  split
  · rfl
  · dsimp only
    split <;> rfl

theorem path_skip (c : PathCursor) (k : Nat) : (c.skip k).path = c.path := by
  induction k with
  | zero => rfl
  | succ k ih => rw [skip_succ, path_next, ih]

/-- Enough calls give all that the calls give. -/
theorem take_eq {c : PathCursor} {ls : List Text} (h : ∀ k, (c.skip k).next.1 = ls[k]?) {n : Nat}
    (hn : ls.length ≤ n) : c.take n = ls := by
  induction n generalizing c ls with
  | zero => rw [List.length_eq_zero_iff.mp (Nat.le_zero.mp hn), take]
  | succ n ih =>
    have hfirst : c.next.1 = ls[0]? := h 0
    have hrest : ∀ k, (c.next.2.skip k).next.1 = ls[k + 1]? := fun k => h (k + 1)
    rw [take]
    generalize c.next = x at hfirst hrest
    obtain ⟨level, c'⟩ := x
    obtain rfl : level = ls[0]? := hfirst
    cases ls with
    | nil => rfl
    | cons l ls => exact congrArg (l :: ·) (ih hrest (Nat.le_of_succ_le_succ hn))

/-! ## All levels -/

def levels (path : Text) : List Text :=
  (List.range (pieces path).length).map fun k => joinPieces ((pieces path).take (k + 1))

theorem getElem?_levels {path : Text} {k : Nat} (hk : k < (pieces path).length) :
    (levels path)[k]? = some (joinPieces ((pieces path).take (k + 1))) := by
  simp [levels, hk]

theorem length_levels (path : Text) : (levels path).length = (pieces path).length := by
  simp [levels]

theorem next_skip_eq (path : Text) (k : Nat) : ((ofPath path).skip k).next.1 = (levels path)[k]? := by
  by_cases hk : k < (pieces path).length
  · rw [next_skip hk, getElem?_levels hk]
  · have hend : (pieces path).length ≤ k := Nat.le_of_not_lt hk
    rw [next_of_end (position_of_end hend), List.getElem?_eq_none (by rwa [length_levels])]

theorem hierarchy_eq (path : Text) : hierarchy path = levels path := by
  refine take_eq (next_skip_eq path) ?_
  rw [length_levels, length_pieces]
  exact Nat.succ_le_succ List.count_le_length

theorem joinPieces_longer {ls ms : List Text} (hl : ls ≠ []) (hm : ms ≠ []) :
    joinPieces ls <+: joinPieces (ls ++ ms) ∧
      (joinPieces ls).length < (joinPieces (ls ++ ms)).length := by
  rw [joinPieces_append ls hm, passed_eq hl, List.append_assoc]
  refine ⟨List.prefix_append _ _, ?_⟩
  simp

theorem levels_longer (path : Text) :
    (levels path).Pairwise fun l m => l <+: m ∧ l.length < m.length := by
  rw [levels, List.pairwise_map]
  refine List.Pairwise.imp_of_mem ?_ List.pairwise_lt_range
  intro i j _ hj hij
  rw [List.mem_range] at hj
  obtain ⟨d, rfl⟩ : ∃ d, j = i + 1 + d := ⟨j - (i + 1), by omega⟩
  rw [Nat.add_assoc (i + 1), List.take_add (i := i + 1)]
  apply joinPieces_longer (take_pieces_ne_nil path i)
  rw [ne_eq, List.take_eq_nil_iff, List.drop_eq_nil_iff]
  omega

theorem begins_of_mem_levels {path l : Text} (h : l ∈ levels path) : l <+: path := by
  obtain ⟨k, -, rfl⟩ := List.mem_map.mp h
  by_cases hk : (pieces path).drop (k + 1) = []
  · have hwhole : joinPieces ((pieces path).take (k + 1)) = path := by
      rw [List.take_of_length_le (List.drop_eq_nil_iff.mp hk), joinPieces_pieces]
    exact hwhole.symm ▸ List.prefix_refl path
  · have hb := (joinPieces_longer (take_pieces_ne_nil path k) hk).1
    rwa [List.take_append_drop, joinPieces_pieces] at hb

theorem getLast?_levels (path : Text) : (levels path).getLast? = some path := by
  have hn : 0 < (pieces path).length := List.length_pos_iff.mpr (pieces_ne_nil path)
  rw [List.getLast?_eq_getElem?, length_levels, getElem?_levels (Nat.sub_lt hn Nat.one_pos),
    Nat.sub_add_cancel hn, List.take_length, joinPieces_pieces]

/-- `levels` are what the calls of a cursor on the path give before they give none for ever. Between
the calls it has passed whole pieces with a slash behind each, and so whole characters. -/
structure Enumerates (path : Text) (pieces levels : List Text) : Prop where
  joined : joinPieces pieces = path
  slashes : ∀ p ∈ pieces, separator ∉ p
  length_pieces : pieces.length = path.count separator + 1
  length_levels : levels.length = pieces.length
  level : ∀ k < levels.length, levels[k]? = some (joinPieces (pieces.take (k + 1)))
  calls : ∀ k, ((ofPath path).skip k).next.1 = levels[k]?
  begins : ∀ l ∈ levels, l <+: path
  longer : levels.Pairwise fun l m => l <+: m ∧ l.length < m.length
  last : levels.getLast? = some path
  same : ∀ k, ((ofPath path).skip k).path = path
  position : ∀ k, ((ofPath path).skip k).position =
    if k < levels.length then some (encode (passed (pieces.take k))).length else none
  /-- Both ends of the cut are texts, so the position is no place inside a character. -/
  whole : ∀ k start, ((ofPath path).skip k).position = some start → ∃ before ahead,
    path = before ++ ahead ∧ start = (encode before).length ∧
      cutAtByte path start = some (before, ahead)

theorem position_skip (path : Text) (k : Nat) : ((ofPath path).skip k).position =
    if k < (levels path).length then some (encode (passed ((pieces path).take k))).length
    else none := by
  rw [length_levels]
  by_cases hk : k < (pieces path).length
  · rw [if_pos hk, (at_skip hk).position]
  · rw [if_neg hk, position_of_end (Nat.le_of_not_lt hk)]

theorem cut_of_position {path : Text} {k start : Nat}
    (h : ((ofPath path).skip k).position = some start) : ∃ before ahead,
      path = before ++ ahead ∧ start = (encode before).length ∧
        cutAtByte path start = some (before, ahead) := by
  rcases Nat.lt_or_ge k (pieces path).length with hk | hk
  · obtain ⟨hpath, hposition⟩ := at_skip hk
    rw [path_skip] at hpath
    generalize passed ((pieces path).take k) = before at hpath hposition
    generalize joinPieces ((pieces path).drop k) = ahead at hpath
    have hcut : path = before ++ ahead := hpath
    obtain rfl := Option.some.inj (hposition.symm.trans h)
    refine ⟨before, ahead, hcut, rfl, ?_⟩
    rw [hcut]
    exact cutAtByte_append before ahead
  · rw [position_of_end hk] at h
    cases h

/-- **A path level by level.** The pieces between its slashes are one more than the slashes, and there
are as many levels: the first pieces joined by slashes, each level longer than those before, and the
path itself at the end. The calls of a cursor give them in order and then none for ever. -/
theorem hierarchy_exact (path : Text) : Enumerates path (pieces path) (hierarchy path) := by
  rw [hierarchy_eq]
  exact {
    joined := joinPieces_pieces path
    slashes := fun _ => separator_not_mem_pieces
    length_pieces := length_pieces path
    length_levels := length_levels path
    level := fun k hk => getElem?_levels (by rwa [length_levels] at hk)
    calls := next_skip_eq path
    begins := fun _ => begins_of_mem_levels
    longer := levels_longer path
    last := getLast?_levels path
    same := path_skip (ofPath path)
    position := position_skip path
    whole := fun _ _ => cut_of_position }

example : hierarchy "é//x/".toList = ["é".toList, "é/".toList, "é//x".toList, "é//x/".toList] := by
  decide

end PathCursor

end SpiceDeck
