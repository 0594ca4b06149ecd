import SpiceDeck.Files.Tree

/-!
# Paths through a changed tree

A file that is written changes the tree at one location (`node?_put`). It stands in no directory's
place, so a path that led somewhere leads there still (`walk_put`). An output path leads to the
location at which the output is made, whether or not a file was there before (`locateOutput_ok`). One
is made wherever a path is `Fresh`.
-/

namespace SpiceDeck

/-! ## Checks in a row -/

section
variable {ε ε' α β : Type} {b : β}

@[simp] theorem ok_bind (a : α) (f : α → Except ε β) : (Except.ok a : Except ε α) >>= f = f a := rfl

@[simp] theorem error_bind (e : ε) (f : α → Except ε β) :
    (Except.error e : Except ε α) >>= f = .error e := rfl

@[simp] theorem mapError_ok (a : α) (f : ε → ε') :
    (Except.ok a : Except ε α).mapError f = .ok a := rfl

@[simp] theorem mapError_error (e : ε) (f : ε → ε') :
    (Except.error e : Except ε α).mapError f = .error (f e) := rfl

theorem bind_eq_ok {x : Except ε α} {f : α → Except ε β} :
    x >>= f = .ok b ↔ ∃ a, x = .ok a ∧ f a = .ok b := by
  cases x <;> simp

theorem check_eq_ok {x : Except ε Unit} {f : Unit → Except ε β} :
    x >>= f = .ok b ↔ x = .ok () ∧ f () = .ok b := by
  rw [bind_eq_ok]
  exact ⟨fun ⟨⟨⟩, hx, hf⟩ => ⟨hx, hf⟩, fun ⟨hx, hf⟩ => ⟨(), hx, hf⟩⟩

end

namespace FileTree

/-! ## One node -/

theorem put_put (t : FileTree) (loc : Location) (a b : Node) :
    (t.put loc a).put loc b = t.put loc b := by
  simp [put, List.filter_filter]

theorem lookup_filter_ne {loc other : Location} (h : other ≠ loc) (nodes : List (Location × Node)) :
    (nodes.filter fun entry => entry.1 != loc).lookup other = nodes.lookup other := by
  induction nodes with
  | nil => rfl
  | cons entry nodes ih =>
    obtain ⟨place, node⟩ := entry
    by_cases hp : place = loc
    · have hne : (other == place) = false := by
        rw [hp]
        exact beq_false_of_ne h
      rw [List.filter_cons_of_neg (by simp [hp]), ih, List.lookup_cons, hne]
    · rw [List.filter_cons_of_pos (by simp [hp]), List.lookup_cons, List.lookup_cons, ih]

section
variable {t : FileTree} {loc target : Location} {node : Node}

theorem node?_put (h : target ≠ []) :
    (t.put target node).node? loc = if loc = target then some node else t.node? loc := by
  cases loc with
  | nil => rw [if_neg h.symm, node?, node?]
  | cons name parent =>
    unfold node? put
    dsimp only
    by_cases he : name :: parent = target
    · rw [if_pos he, List.lookup_cons, beq_iff_eq.mpr he]
    · rw [if_neg he, List.lookup_cons, beq_false_of_ne he]
      exact lookup_filter_ne he t.nodes

/-! ## Following a path -/

theorem checkDirectory_ok : t.checkDirectory loc = .ok () ↔ t.node? loc = some .directory := by
  unfold checkDirectory
  cases t.node? loc with
  | none => simp
  | some node => cases node <;> simp

theorem walk_cons_ok {name : Text} {rest : List Text} {there : Location} :
    t.walk loc (name :: rest) = .ok there ↔ t.node? loc = some .directory ∧
      ∃ next, stepFrom loc name = .ok next ∧ t.walk next rest = .ok there := by
  rw [walk, check_eq_ok, checkDirectory_ok, bind_eq_ok]

theorem walk_append (t : FileTree) (loc : Location) (names rest : List Text) :
    t.walk loc (names ++ rest) = t.walk loc names >>= fun there => t.walk there rest := by
  induction names generalizing loc with
  | nil => rfl
  | cons name names ih =>
    rw [List.cons_append, walk, walk]
    cases t.checkDirectory loc with
    | error fault => rfl
    | ok _ =>
      cases stepFrom loc name with
      | error fault => rfl
      | ok next => exact ih next

theorem walk_concat_ok {names : List Text} {name : Text} {there : Location}
    (h : t.walk loc names = .ok there) (hd : t.node? there = some .directory) :
    t.walk loc (names ++ [name]) = stepFrom there name := by
  rw [walk_append, h, ok_bind, walk, checkDirectory_ok.mpr hd]
  cases stepFrom there name <;> rfl

theorem walk_put {names : List Text} {there : Location} (hne : target ≠ [])
    (hd : t.node? target ≠ some .directory) (h : t.walk loc names = .ok there) :
    (t.put target node).walk loc names = .ok there := by
  induction names generalizing loc with
  | nil => exact h
  | cons name names ih =>
    obtain ⟨hl, next, hn, hw⟩ := walk_cons_ok.mp h
    apply walk_cons_ok.mpr
    refine ⟨?_, next, hn, ih hw⟩
    -- the step starts from a directory, and the target is none
    rw [node?_put hne, if_neg fun he : loc = target => hd (he ▸ hl), hl]

variable {path : Text}

theorem resolve_ok : t.resolve path = .ok (loc, node) ↔ checkSpelling path = .ok () ∧
    t.walk (t.startOf path) (path.splitOn separator) = .ok loc ∧ t.node? loc = some node := by
  unfold resolve
  rw [check_eq_ok, bind_eq_ok]
  constructor
  · rintro ⟨hc, there, hw, hn⟩
    cases hm : t.node? there with
    | none => simp [hm] at hn
    | some found =>
      obtain ⟨rfl, rfl⟩ : there = loc ∧ found = node := by simpa [hm] using hn
      exact ⟨hc, hw, hm⟩
  · rintro ⟨hc, hw, hn⟩
    exact ⟨hc, loc, hw, by simp [hn]⟩

theorem locate_ok : t.locate path = .ok (loc, node) ↔
    checkPath path = .ok () ∧ t.resolve path = .ok (loc, node) := by
  rw [locate, check_eq_ok]

theorem checkSpelling_of_path (h : checkPath path = .ok ()) : checkSpelling path = .ok () := by
  exact (check_eq_ok.mp h).1

/-! ## Where an output is made -/

theorem stepFrom_name {parent : Location} {name : Text} (hne : name ≠ []) (hhere : name ≠ here)
    (habove : name ≠ above) (h : checkName name = .ok ()) :
    stepFrom parent name = .ok (name :: parent) := by
  unfold stepFrom
  rw [if_neg (by simp [hne, hhere]), if_neg (by simp [habove]), h]
  rfl

/-- With no separator at its end, a path ends with the name that is the last to be no empty step. -/
theorem eq_concat_of_dropWhile {names before : List Text} {name : Text}
    (h : names.reverse.dropWhile List.isEmpty = name :: before) (hl : names.getLast? ≠ some []) :
    names = before.reverse ++ [name] ∧ name ≠ [] := by
  rcases List.eq_nil_or_concat names with rfl | ⟨front, last, rfl⟩
  · cases h
  · have hlast : last ≠ [] := by simpa using hl
    rw [List.concat_eq_append, List.reverse_append, List.reverse_singleton, List.singleton_append,
      List.dropWhile_cons_of_neg (by simpa using hlast)] at h
    obtain ⟨rfl, rfl⟩ := List.cons.inj h
    exact ⟨by simp, hlast⟩

theorem locateOutput_ok (h : t.locateOutput path = .ok target) : checkPath path = .ok () ∧
    t.walk (t.startOf path) (path.splitOn separator) = .ok target ∧ target ≠ [] ∧
    t.node? target ≠ some .directory := by
  obtain ⟨hc, h⟩ := check_eq_ok.mp h
  dsimp only at h
  split at h
  · cases h
  · rename_i name before hs
    obtain ⟨parent, hw, h⟩ := bind_eq_ok.mp h
    obtain ⟨hd, h⟩ := check_eq_ok.mp h
    split at h
    · cases (check_eq_ok.mp h).1
    · rename_i hname
      obtain ⟨hn, h⟩ := check_eq_ok.mp h
      split at h
      · cases h
      · rename_i hfree
        obtain rfl : name :: parent = target := by simpa [pure, Except.pure] using h
        simp only [Bool.or_eq_true, beq_iff_eq, not_or] at hname
        obtain ⟨⟨hhere, habove⟩, hlast⟩ := hname
        obtain ⟨hsteps, hne⟩ := eq_concat_of_dropWhile hs hlast
        refine ⟨hc, ?_, List.cons_ne_nil name parent, hfree⟩
        rw [hsteps, walk_concat_ok hw (checkDirectory_ok.mp hd)]
        exact stepFrom_name hne hhere habove hn

/-- An output that is there already is found where it would be made. -/
theorem locate_of_locateOutput (h : t.locateOutput path = .ok target)
    (hn : t.node? target = some node) : t.locate path = .ok (target, node) := by
  obtain ⟨hc, hw, -, -⟩ := locateOutput_ok h
  exact locate_ok.mpr ⟨hc, resolve_ok.mpr ⟨checkSpelling_of_path hc, hw, hn⟩⟩

/-- A path that is too long to be looked up is too long to make a file. -/
theorem create_of_not_located {found : Location × Node} {fault : Fault}
    (hr : t.resolve path = .ok found) (hl : t.locate path = .error fault) :
    t.create path = .error fault := by
  have hc : checkPath path = .error fault := by
    cases hc : checkPath path with
    | error other => simpa [locate, hc] using hl
    | ok _ => simp [locate, hc, hr] at hl
  rw [create, locateOutput, hc]
  rfl

theorem resolve_put_output (h : t.locateOutput path = .ok target) :
    (t.put target node).resolve path = .ok (target, node) := by
  obtain ⟨hc, hw, hne, hd⟩ := locateOutput_ok h
  apply resolve_ok.mpr
  refine ⟨checkSpelling_of_path hc, walk_put hne hd hw, ?_⟩
  rw [node?_put hne, if_pos rfl]

theorem resolve_put {found : Node} (hne : target ≠ []) (hd : t.node? target ≠ some .directory)
    (hl : loc ≠ target) (h : t.resolve path = .ok (loc, found)) :
    (t.put target node).resolve path = .ok (loc, found) := by
  obtain ⟨hc, hw, hn⟩ := resolve_ok.mp h
  apply resolve_ok.mpr
  refine ⟨hc, walk_put hne hd hw, ?_⟩
  rw [node?_put hne, if_neg hl, hn]

end

/-! ## Where there is no file yet -/

/-- A place that is not taken: `front` leads to a directory, and nothing in it has the name. -/
structure Vacant (t : FileTree) (front name : Text) (parent : Location) : Prop where
  ends : front = [] ∨ front.getLast? = some separator
  directory : t.resolve (front ++ here) = .ok (parent, .directory)
  single : separator ∉ name
  proper : name ≠ [] ∧ name ≠ here ∧ name ≠ above
  short : checkName name = .ok ()
  spelling : checkPath (front ++ name) = .ok ()
  free : t.node? (name :: parent) = none

/-- A path at which a file can be made where none is. -/
def Fresh (t : FileTree) (path : Text) : Prop :=
  ∃ front name parent, path = front ++ name ∧ t.Vacant front name parent

section
variable {t : FileTree} {path : Text}

theorem splitOn_front {front : Text} (h : front = [] ∨ front.getLast? = some separator) :
    ∃ start names, ∀ name, separator ∉ name → t.startOf (front ++ name) = start ∧
      (front ++ name).splitOn separator = names ++ [name] := by
  rcases h with rfl | h
  · refine ⟨t.working, [], fun name hn => ⟨if_neg fun hh => ?_, List.splitOn_eq_singleton hn⟩⟩
    exact hn (List.mem_of_head? hh)
  · obtain ⟨front, rfl⟩ := List.getLast?_eq_some_iff.mp h
    refine ⟨t.startOf (front ++ [separator]), front.splitOn separator, fun name hn => ⟨?_, ?_⟩⟩
    · cases front <;> rfl
    · rw [List.append_assoc, List.singleton_append, List.splitOn_append_cons_self,
        List.splitOn_eq_singleton hn]

section
variable {front name : Text} {parent : Location} (h : t.Vacant front name parent)
include h

/-- The steps in front of the name lead to the directory; its own path has one more, to where it is. -/
theorem Vacant.walk : ∃ names, (front ++ name).splitOn separator = names ++ [name] ∧
    t.walk (t.startOf (front ++ name)) names = .ok parent := by
  obtain ⟨start, names, hf⟩ := splitOn_front (t := t) h.ends
  obtain ⟨-, hw, -⟩ := resolve_ok.mp h.directory
  obtain ⟨hs, hn⟩ := hf here (by decide)
  rw [hs, hn, walk_append] at hw
  obtain ⟨there, hthere, hw⟩ := bind_eq_ok.mp hw
  obtain ⟨-, next, hnext, hw⟩ := walk_cons_ok.mp hw
  obtain rfl : there = next := Except.ok.inj hnext
  obtain rfl : there = parent := Except.ok.inj hw
  obtain ⟨hs', hn'⟩ := hf name h.single
  refine ⟨names, hn', ?_⟩
  rw [hs', hthere]

theorem Vacant.locate : t.locate (front ++ name) = .error .notFound := by
  obtain ⟨names, hn, hw⟩ := h.walk
  have hd := (resolve_ok.mp h.directory).2.2
  have hstep : stepFrom parent name = .ok (name :: parent) :=
    stepFrom_name h.proper.1 h.proper.2.1 h.proper.2.2 h.short
  rw [FileTree.locate, h.spelling, ok_bind, resolve, checkSpelling_of_path h.spelling, ok_bind, hn,
    walk_concat_ok hw hd, hstep, ok_bind, h.free]

theorem Vacant.locateOutput : t.locateOutput (front ++ name) = .ok (name :: parent) := by
  obtain ⟨names, hn, hw⟩ := h.walk
  have hd := (resolve_ok.mp h.directory).2.2
  have hlast : (names ++ [name]).reverse.dropWhile List.isEmpty = name :: names.reverse := by
    rw [List.reverse_append, List.reverse_singleton, List.singleton_append,
      List.dropWhile_cons_of_neg (by simp [h.proper.1])]
  have hname : ¬(name == here || name == above || (names ++ [name]).getLast? == some []) := by
    simp [h.proper]
  rw [FileTree.locateOutput, h.spelling, ok_bind, hn]
  simp only [hlast, List.reverse_reverse, hw, checkDirectory_ok.mpr hd, if_neg hname, h.short,
    h.free, ok_bind]
  rfl

end

theorem Fresh.ne_nil (h : t.Fresh path) : path ≠ [] := by
  obtain ⟨front, name, parent, rfl, hv⟩ := h
  simp [hv.proper.1]

theorem Fresh.locate (h : t.Fresh path) : t.locate path = .error .notFound := by
  obtain ⟨front, name, parent, rfl, hv⟩ := h
  exact hv.locate

theorem Fresh.locateOutput (h : t.Fresh path) : ∃ target, t.locateOutput path = .ok target := by
  obtain ⟨front, name, parent, rfl, hv⟩ := h
  exact ⟨_, hv.locateOutput⟩

end

end FileTree

end SpiceDeck
