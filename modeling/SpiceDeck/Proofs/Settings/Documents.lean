import Mathlib.Data.List.Nodup
import SpiceDeck.Proofs.Toml.Lines
import SpiceDeck.Settings

/-!
# Documents that state settings

A document states settings if it has each of them once, in its table, in any order and with any blanks
and comments between; a table with nothing to state may be left out. It is read as these settings
(`ofToml_of_states`). The document that the settings are written to is one of them (`states_toToml`).
-/

namespace SpiceDeck

theorem CommentPolicy.ofName?_name (p : CommentPolicy) : ofName? p.name = some p := by
  cases p <;> decide

theorem EmptyDeck.ofName?_name (e : EmptyDeck) : ofName? e.name = some e := by
  cases e <;> decide

namespace Settings

/-! ## Choices and tables -/

inductive Table
  | unwrap
  | wrap
  deriving DecidableEq

namespace Table

def name : Table → Text
  | unwrap => unwrapTable
  | wrap => wrapTable

def keys : Table → List Text
  | unwrap => [commentsKey, emptyDeckKey]
  | wrap => [widthKey]

theorem name_injective : Function.Injective name := by
  intro t u h
  revert h
  cases t <;> cases u <;> decide

end Table

/-- One setting that is present. -/
inductive Choice
  | comments (policy : CommentPolicy)
  | emptyDeck (output : EmptyDeck)
  | width (columns : Nat)
  deriving DecidableEq

namespace Choice

def table : Choice → Table
  | comments _ | emptyDeck _ => .unwrap
  | width _ => .wrap

def key : Choice → Text
  | comments _ => commentsKey
  | emptyDeck _ => emptyDeckKey
  | width _ => widthKey

def literal : Choice → Toml.Literal
  | comments p => .text p.name
  | emptyDeck e => .text e.name
  | width n => .number n

def clause (c : Choice) : Toml.Clause := .entry c.key c.literal

def entry (c : Choice) : Text × Toml.Value := (c.key, c.literal.value)

theorem key_mem_keys_iff {c : Choice} {t : Table} : c.key ∈ t.keys ↔ c.table = t := by
  cases c <;> cases t <;> simp [key, table, Table.keys] <;> decide

end Choice

/-- The choices that are made, in the order of the fields. -/
def choices (s : Settings) : List Choice :=
  (s.comments.map .comments).toList ++ (s.emptyDeck.map .emptyDeck).toList ++
    (s.width.map .width).toList

theorem nodup_choices (s : Settings) : (s.choices.map Choice.key).Nodup := by
  obtain ⟨_ | _, _ | _, _ | _⟩ := s <;> simp [choices, Choice.key] <;> decide

/-- A table as it stands in a document. -/
structure Sheet where
  table : Table
  choices : List Choice
  placed : ∀ c ∈ choices, c.table = table

namespace Sheet

def clauses (sheet : Sheet) : List Toml.Clause :=
  .header sheet.table.name :: sheet.choices.map Choice.clause

def entries (sheet : Sheet) : Toml.Entries := sheet.choices.map Choice.entry

end Sheet

/-- What the lines say is one table after another, none twice, with each of the settings in one. -/
def States (lines : List Toml.Line) (s : Settings) : Prop :=
  ∃ sheets : List Sheet, Toml.clausesOf lines = sheets.flatMap Sheet.clauses ∧
    (sheets.map Sheet.table).Nodup ∧ (sheets.flatMap Sheet.choices).Perm s.choices

/-! ## Sections -/

theorem sectionsOf_choices (current : Toml.Section) (cs : List Choice) (rest : List Toml.Clause) :
    Toml.sectionsOf current (cs.map Choice.clause ++ rest) =
      Toml.sectionsOf { current with entries := current.entries ++ cs.map Choice.entry } rest := by
  induction cs generalizing current with
  | nil => simp
  | cons c cs ih =>
    rw [List.map_cons, List.cons_append, Choice.clause, Toml.sectionsOf, ih]
    simp [Choice.entry]

theorem sectionsOf_sheets (current : Toml.Section) (sheets : List Sheet) :
    Toml.sectionsOf current (sheets.flatMap Sheet.clauses) =
      current :: sheets.map fun sheet => ⟨[sheet.table.name], false, sheet.entries⟩ := by
  induction sheets generalizing current with
  | nil => rfl
  | cons sheet sheets ih =>
    rw [List.flatMap_cons, Sheet.clauses, List.cons_append, Toml.sectionsOf, sectionsOf_choices, ih]
    rfl

/-- Its tables by name. -/
def namedTables (sheets : List Sheet) : Toml.Entries :=
  sheets.map fun sheet => (sheet.table.name, .table sheet.entries false)

theorem tables_sheets (sheets : List Sheet) :
    tables (sheets.map fun sheet => ⟨[sheet.table.name], false, sheet.entries⟩) =
      some (namedTables sheets) := by
  induction sheets with
  | nil => rfl
  | cons sheet sheets ih => simp [tables, ih, namedTables]

/-- No header has two keys. -/
theorem entriesOf_sheets (sheets : List Sheet) :
    entriesOf (.top :: sheets.map fun sheet => ⟨[sheet.table.name], false, sheet.entries⟩) =
      some (namedTables sheets) := by
  unfold entriesOf
  split
  · rename_i h
    cases sheets <;> simp at h
  · simp [Toml.Section.top, tables, tables_sheets]

/-! ## Fields -/

section
variable {entries entries' : Toml.Entries} {key : Text}

theorem lookup_eq_some_iff_mem (h : (entries.map Prod.fst).Nodup) {v : Toml.Value} :
    entries.lookup key = some v ↔ (key, v) ∈ entries := by
  induction entries with
  | nil => simp
  | cons e entries ih =>
    obtain ⟨k, w⟩ := e
    obtain ⟨hnot, h⟩ := List.nodup_cons.mp h
    rw [List.lookup_cons, List.mem_cons]
    by_cases hk : key = k
    · subst hk
      have hmem : (key, v) ∉ entries := fun hm => hnot (List.mem_map.mpr ⟨_, hm, rfl⟩)
      simp [hmem, eq_comm]
    · have hk' : (key == k) = false := beq_eq_false_iff_ne.mpr hk
      simp [hk', hk, ih h]

theorem lookup_congr (h : (entries.map Prod.fst).Nodup) (h' : (entries'.map Prod.fst).Nodup)
    (hm : ∀ v, (key, v) ∈ entries ↔ (key, v) ∈ entries') :
    entries.lookup key = entries'.lookup key := by
  refine Option.ext fun v => ?_
  rw [lookup_eq_some_iff_mem h, lookup_eq_some_iff_mem h', hm]

theorem fields_table {known : List Text} (h : (entries.map Prod.fst).Nodup)
    (hk : ∀ e ∈ entries, e.1 ∈ known) (isOpen : Bool) :
    fields known (some (.table entries isOpen)) = some (known.map fun key => entries.lookup key) := by
  have hknown : (entries.map fun e => e.1).all known.contains = true := by
    rw [List.all_map, List.all_eq_true]
    exact fun e he => List.contains_iff_mem.mpr (hk e he)
  have hw : wellKeyed known entries = true := by
    rw [wellKeyed, hknown, Bool.and_true]
    exact decide_eq_true h
  rw [fields, if_pos hw]

end

def entries (s : Settings) : Toml.Entries := s.choices.map Choice.entry

theorem nodup_entries {cs : List Choice} (h : (cs.map Choice.key).Nodup) :
    ((cs.map Choice.entry).map Prod.fst).Nodup := by
  rw [List.map_map]
  exact h

section
variable {sheets : List Sheet} {s : Settings} (hn : (sheets.map Sheet.table).Nodup)
  (hp : (sheets.flatMap Sheet.choices).Perm s.choices)

section
include hn

theorem nodup_namedTables : ((namedTables sheets).map Prod.fst).Nodup := by
  have hnames := List.Nodup.map Table.name_injective hn
  rw [List.map_map] at hnames
  rw [namedTables, List.map_map]
  exact hnames

theorem fields_sheets :
    fields [unwrapTable, wrapTable] (some (.table (namedTables sheets) false)) =
      some [(namedTables sheets).lookup unwrapTable, (namedTables sheets).lookup wrapTable] := by
  refine fields_table (nodup_namedTables hn) ?_ false
  intro e he
  obtain ⟨sheet, -, rfl⟩ := List.mem_map.mp he
  cases sheet.table <;> simp [Table.name]

end

include hp

theorem nodup_sheet {sheet : Sheet} (hs : sheet ∈ sheets) :
    (sheet.choices.map Choice.key).Nodup := by
  have hall : ((sheets.flatMap Sheet.choices).map Choice.key).Nodup :=
    (hp.map Choice.key).nodup_iff.mpr s.nodup_choices
  rw [List.map_flatMap] at hall
  exact (List.nodup_flatMap.mp hall).1 sheet hs

include hn

/-- A table has all that belongs to it. -/
theorem mem_sheet_iff {sheet : Sheet} (hs : sheet ∈ sheets) {c : Choice} :
    c ∈ sheet.choices ↔ c ∈ s.choices ∧ c.table = sheet.table := by
  constructor
  · intro hc
    exact ⟨hp.mem_iff.mp (List.mem_flatMap.mpr ⟨sheet, hs, hc⟩), sheet.placed c hc⟩
  · rintro ⟨hc, ht⟩
    obtain ⟨sheet', hs', hc⟩ := List.mem_flatMap.mp (hp.mem_iff.mpr hc)
    have hsame : sheet' = sheet :=
      List.inj_on_of_nodup_map hn hs' hs ((sheet'.placed c hc).symm.trans ht)
    exact hsame ▸ hc

theorem fields_sheet (t : Table) :
    fields t.keys ((namedTables sheets).lookup t.name) =
      some (t.keys.map fun key => s.entries.lookup key) := by
  by_cases ht : ∃ sheet ∈ sheets, sheet.table = t
  · obtain ⟨sheet, hs, rfl⟩ := ht
    have hl : (namedTables sheets).lookup sheet.table.name = some (.table sheet.entries false) :=
      (lookup_eq_some_iff_mem (nodup_namedTables hn)).mpr (List.mem_map.mpr ⟨sheet, hs, rfl⟩)
    have hkeys : (sheet.entries.map Prod.fst).Nodup := nodup_entries (nodup_sheet hp hs)
    have hknown : ∀ e ∈ sheet.entries, e.1 ∈ sheet.table.keys := by
      intro e he
      obtain ⟨c, hc, rfl⟩ := List.mem_map.mp he
      exact Choice.key_mem_keys_iff.mpr (sheet.placed c hc)
    rw [hl, fields_table hkeys hknown]
    refine congrArg some (List.map_congr_left fun key hk => ?_)
    refine lookup_congr hkeys (nodup_entries s.nodup_choices) fun v => ?_
    rw [Sheet.entries, Settings.entries, List.mem_map, List.mem_map]
    constructor
    · rintro ⟨c, hc, he⟩
      exact ⟨c, ((mem_sheet_iff hn hp hs).mp hc).1, he⟩
    · rintro ⟨c, hc, he⟩
      obtain rfl : c.key = key := congrArg Prod.fst he
      exact ⟨c, (mem_sheet_iff hn hp hs).mpr ⟨hc, Choice.key_mem_keys_iff.mp hk⟩, he⟩
  · have hl : (namedTables sheets).lookup t.name = none := by
      rw [List.lookup_eq_none_iff]
      intro e he
      obtain ⟨sheet, hs, rfl⟩ := List.mem_map.mp he
      exact bne_iff_ne.mpr fun hname => ht ⟨sheet, hs, (Table.name_injective hname).symm⟩
    have hnone : ∀ key ∈ t.keys, s.entries.lookup key = none := by
      intro key hk
      rw [List.lookup_eq_none_iff]
      intro e he
      obtain ⟨c, hc, rfl⟩ := List.mem_map.mp he
      obtain ⟨sheet, hs, hc⟩ := List.mem_flatMap.mp (hp.mem_iff.mpr hc)
      refine bne_iff_ne.mpr ?_
      rintro rfl
      exact ht ⟨sheet, hs, (sheet.placed c hc).symm.trans (Choice.key_mem_keys_iff.mp hk)⟩
    rw [hl, fields]
    exact congrArg some (List.map_congr_left fun key hk => (hnone key hk).symm)

end

/-! ## Values -/

theorem optional_map {α : Type} {read : Toml.Value → Option α} {write : α → Toml.Value}
    (h : ∀ a, read (write a) = some a) (o : Option α) : optional read (o.map write) = some o := by
  cases o with
  | none => rfl
  | some a => simp [optional, h]

section
variable (s : Settings)

theorem lookup_comments : s.entries.lookup commentsKey =
    s.comments.map fun p => .text p.name := by
  obtain ⟨_ | _, _ | _, _ | _⟩ := s <;> rfl

theorem lookup_emptyDeck : s.entries.lookup emptyDeckKey =
    s.emptyDeck.map fun e => .text e.name := by
  obtain ⟨_ | _, _ | _, _ | _⟩ := s <;> rfl

theorem lookup_width : s.entries.lookup widthKey = s.width.map fun n => .integer n := by
  obtain ⟨_ | _, _ | _, _ | _⟩ := s <;> rfl

end

/-- **A document is read as the settings that it states.** -/
theorem ofToml_of_states {lines : List Toml.Line} {s : Settings} (h : States lines s) :
    ofToml (Toml.textOf lines) = some s := by
  obtain ⟨sheets, hc, hn, hp⟩ := h
  have hcomments : optional (named CommentPolicy.ofName?) (s.entries.lookup commentsKey) =
      some s.comments := by
    rw [lookup_comments]
    exact optional_map CommentPolicy.ofName?_name s.comments
  have hemptyDeck : optional (named EmptyDeck.ofName?) (s.entries.lookup emptyDeckKey) =
      some s.emptyDeck := by
    rw [lookup_emptyDeck]
    exact optional_map EmptyDeck.ofName?_name s.emptyDeck
  have hwidth : optional natural (s.entries.lookup widthKey) = some s.width := by
    rw [lookup_width]
    exact optional_map (fun n : Nat => (rfl : natural (.integer n) = some n)) s.width
  have hunwrap : fields [commentsKey, emptyDeckKey] ((namedTables sheets).lookup unwrapTable) =
      some [s.entries.lookup commentsKey, s.entries.lookup emptyDeckKey] :=
    fields_sheet hn hp .unwrap
  have hwrap : fields [widthKey] ((namedTables sheets).lookup wrapTable) =
      some [s.entries.lookup widthKey] := fields_sheet hn hp .wrap
  rw [ofToml, Toml.read_text, hc, sectionsOf_sheets]
  simp only [Option.bind_eq_bind, Option.bind_some, ofSections, entriesOf_sheets,
    fields_sheets hn, hunwrap, hwrap, hcomments, hemptyDeck, hwidth]
  rfl

/-! ## The document that is written -/

theorem Table.isBareWord_name (t : Table) : Toml.IsBareWord t.name := by
  cases t <;> decide

theorem isPlainText_comments (p : CommentPolicy) : Toml.IsPlainText p.name := by
  cases p <;> decide

theorem isPlainText_emptyDeck (e : EmptyDeck) : Toml.IsPlainText e.name := by
  cases e <;> decide

theorem Choice.writable_clause {c : Choice} (h : ∀ n, c = .width n → n < 0x8000000000000000) :
    c.clause.Writable := by
  cases c with
  | comments p => exact ⟨(by decide : Toml.IsBareWord commentsKey), isPlainText_comments p⟩
  | emptyDeck e => exact ⟨(by decide : Toml.IsBareWord emptyDeckKey), isPlainText_emptyDeck e⟩
  | width n => exact ⟨(by decide : Toml.IsBareWord widthKey), h n rfl⟩

/-- Both tables, whether there is anything in them or not. -/
def sheets (s : Settings) : List Sheet :=
  [⟨.unwrap, s.choices.filter fun c => c.table = .unwrap, by simp⟩,
    ⟨.wrap, s.choices.filter fun c => c.table = .wrap, by simp⟩]

theorem toToml_eq (s : Settings) :
    s.toToml = (s.sheets.flatMap Sheet.clauses).flatMap Toml.Clause.plain := by
  have hcomments : ∀ p : CommentPolicy, Quoted.json p.name = '"' :: (p.name ++ ['"']) := by
    intro p
    cases p <;> decide
  have hemptyDeck : ∀ e : EmptyDeck, Quoted.json e.name = '"' :: (e.name ++ ['"']) := by
    intro e
    cases e <;> decide
  obtain ⟨_ | _, _ | _, _ | _⟩ := s <;>
    simp [toToml, sheets, choices, Sheet.clauses, Choice.table, Choice.clause, Choice.key,
      Choice.literal, Toml.Clause.plain, Toml.Literal.spelling, tomlEntry, tomlHeader, Table.name,
      hcomments, hemptyDeck]

theorem choices_sheets (s : Settings) : s.sheets.flatMap Sheet.choices = s.choices := by
  obtain ⟨_ | _, _ | _, _ | _⟩ := s <;> rfl

theorem states_toToml {s : Settings} (h : ∀ n ∈ s.width, n < 0x8000000000000000) :
    ∃ lines, States lines s ∧ Toml.textOf lines = s.toToml := by
  have hw : ∀ c ∈ s.sheets.flatMap Sheet.clauses, c.Writable := by
    intro c hc
    obtain ⟨sheet, hs, hc⟩ := List.mem_flatMap.mp hc
    rcases List.mem_cons.mp hc with rfl | hc
    · exact sheet.table.isBareWord_name
    · obtain ⟨choice, hchoice, rfl⟩ := List.mem_map.mp hc
      refine Choice.writable_clause ?_
      rintro n rfl
      have hn : Choice.width n ∈ s.choices :=
        s.choices_sheets ▸ List.mem_flatMap.mpr ⟨sheet, hs, hchoice⟩
      exact h n (by simpa [choices] using hn)
  refine ⟨(s.sheets.flatMap Sheet.clauses).pmap Toml.Clause.line hw, ⟨s.sheets, ?_, ?_, ?_⟩, ?_⟩
  · exact Toml.clausesOf_pmap hw
  · show [Table.unwrap, Table.wrap].Nodup
    decide
  · rw [choices_sheets]
  · rw [Toml.textOf_pmap, toToml_eq]

end Settings

end SpiceDeck
