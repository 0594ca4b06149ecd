import SpiceDeck.Proofs.Toml.Lexing
import SpiceDeck.Toml.Document

/-!
# Documents that are read back

Lines with headers of one key and entries of one key, whose values are quoted texts and natural
numbers, with any blanks and comments between, are read as the sections that they state (`read_text`).
-/

namespace SpiceDeck

namespace Toml

open Lexeme

/-! ## What a line states -/

inductive Literal
  | text (text : Text)
  | number (n : Nat)
  deriving DecidableEq

namespace Literal

def Writable : Literal → Prop
  | text t => IsPlainText t
  | number n => n < 0x8000000000000000

instance (l : Literal) : Decidable l.Writable :=
  match l with
  | text t => inferInstanceAs (Decidable (IsPlainText t))
  | number n => inferInstanceAs (Decidable (n < 0x8000000000000000))

def spelling : Literal → Text
  | text t => '"' :: (t ++ ['"'])
  | number n => Digits.decimal n

def lexeme : Literal → Lexeme
  | text t => .quoted t false
  | number n => .bare (Digits.decimal n)

def value : Literal → Value
  | text t => .text t
  | number n => .integer n

end Literal

/-- What a line says, margins apart. -/
inductive Clause
  | header (name : Text)
  | entry (key : Text) (literal : Literal)
  deriving DecidableEq

namespace Clause

def Writable : Clause → Prop
  | header name => IsBareWord name
  | entry key literal => IsBareWord key ∧ literal.Writable

instance (c : Clause) : Decidable c.Writable :=
  match c with
  | header name => inferInstanceAs (Decidable (IsBareWord name))
  | entry key literal => inferInstanceAs (Decidable (IsBareWord key ∧ literal.Writable))

def text (left right : Gap) : Clause → Text
  | header name => '[' :: (left.text ++ (name ++ (right.text ++ [']'])))
  | entry key literal => key ++ (left.text ++ '=' :: (right.text ++ literal.spelling))

def lexemes : Clause → List Lexeme
  | header name => [.leftBracket false, .bare name, .rightBracket false]
  | entry key literal => [.bare key, .equals, literal.lexeme]

end Clause

/-- A line with a clause, or one that is blank or has a comment only. -/
structure Line where
  indent : Gap
  clause : Option Clause
  left : Gap
  right : Gap
  ending : Ending
  writable : ∀ c ∈ clause, c.Writable

def Line.text (l : Line) : Text :=
  l.indent.text ++ ((l.clause.elim [] (Clause.text l.left l.right)) ++ l.ending.text)

def Line.lexemes (l : Line) : List Lexeme := l.clause.elim [] Clause.lexemes ++ l.ending.lexemes

def textOf (ls : List Line) : Text := ls.flatMap Line.text

def clausesOf (ls : List Line) : List Clause := ls.filterMap Line.clause

/-- The sections that clauses make; `current` is the one that entries go to. -/
def sectionsOf (current : Section) : List Clause → List Section
  | [] => [current]
  | .header name :: cs => current :: sectionsOf ⟨[name], false, []⟩ cs
  | .entry key literal :: cs =>
    sectionsOf { current with entries := current.entries ++ [(key, literal.value)] } cs

/-! ## Plain lines -/

def Gap.none : Gap := ⟨[], by simp⟩

def Gap.space : Gap := ⟨[' '], by simp [Lexeme.isGap]⟩

namespace Clause

/-- The line with a blank on each side of an equals sign and no others. -/
def line (c : Clause) (h : c.Writable) : Line where
  indent := .none
  clause := some c
  left := match c with
    | header _ => .none
    | entry _ _ => .space
  right := match c with
    | header _ => .none
    | entry _ _ => .space
  ending := ⟨.none, none, by simp⟩
  writable := by
    rintro _ ⟨⟩
    exact h

def plain : Clause → Text
  | header name => '[' :: name ++ [']', '\n']
  | entry key literal => key ++ " = ".toList ++ literal.spelling ++ ['\n']

theorem text_line {c : Clause} (h : c.Writable) : (c.line h).text = c.plain := by
  cases c <;> simp [line, plain, Line.text, text, Gap.none, Gap.space, Ending.text, Ending.remark]

end Clause

section
variable {cs : List Clause} (h : ∀ c ∈ cs, c.Writable)

theorem clausesOf_pmap : clausesOf (cs.pmap Clause.line h) = cs := by
  induction cs with
  | nil => rfl
  | cons c cs ih => exact congrArg (c :: ·) (ih fun c hc => h c (List.mem_cons_of_mem _ hc))

theorem textOf_pmap : textOf (cs.pmap Clause.line h) = cs.flatMap Clause.plain := by
  induction cs with
  | nil => rfl
  | cons c cs ih =>
    rw [List.pmap, textOf, List.flatMap_cons, Clause.text_line, List.flatMap_cons]
    exact congrArg (c.plain ++ ·) (ih fun c hc => h c (List.mem_cons_of_mem _ hc))

end

/-! ## Lexemes of a line -/

theorem not_isBare_head_ending (e : Ending) (rest : Text) :
    ∀ c ∈ (e.text ++ rest).head?, isBare c = false :=
  head?_ending (fun _ => isBare_of_isGap) (by decide) (by decide)

theorem lexesTo_literal {l : Literal} {rest : Text} (h : l.Writable)
    (hr : ∀ c ∈ rest.head?, isBare c = false) : LexesTo l.spelling [l.lexeme] rest := by
  cases l with
  | text t => exact lexesTo_quoted h rest
  | number n => exact lexesTo_bare (isBareWord_decimal n) hr

theorem lexesTo_equals (rest : Text) : LexesTo ['='] [.equals] rest :=
  lexesTo_of_next (by decide) rfl

theorem lexesTo_leftBracket {rest : Text} (h : ∀ c ∈ rest.head?, c ≠ '[') :
    LexesTo ['['] [.leftBracket false] rest := by
  have hone : (rest.head? == some '[') = false := by
    rw [beq_eq_false_iff_ne]
    exact fun hh => h '[' hh rfl
  exact lexesTo_of_next (by decide) (by simp [Lexeme.next, isBare, hone])

theorem lexesTo_rightBracket {rest : Text} (h : ∀ c ∈ rest.head?, c ≠ ']') :
    LexesTo [']'] [.rightBracket false] rest := by
  have hone : (rest.head? == some ']') = false := by
    rw [beq_eq_false_iff_ne]
    exact fun hh => h ']' hh rfl
  exact lexesTo_of_next (by decide) (by simp [Lexeme.next, isBare, hone])

theorem ne_of_isGap {c d : Char} (hd : isGap d = false) (h : isGap c = true) : c ≠ d := by
  rintro rfl
  rw [h] at hd
  cases hd

theorem lexesTo_clause {c : Clause} (h : c.Writable) (left right : Gap) (e : Ending) (rest : Text) :
    LexesTo (c.text left right) c.lexemes (e.text ++ rest) := by
  cases c with
  | header name =>
    obtain ⟨d, name, rfl⟩ := List.exists_cons_of_ne_nil h.1
    have hopen : ∀ c ∈ (left.text ++ (d :: name ++ (right.text ++ [']'])) ++ (e.text ++ rest)).head?,
        c ≠ '[' := by
      rw [List.append_assoc]
      apply head?_gap fun c => ne_of_isGap (by decide)
      rintro c hc rfl
      obtain rfl : d = '[' := by simpa using hc
      exact absurd (h.2 _ (List.mem_cons_self ..)) (by decide)
    have hname : ∀ c ∈ (right.text ++ [']'] ++ (e.text ++ rest)).head?, isBare c = false := by
      rw [List.append_assoc]
      apply head?_gap fun c => isBare_of_isGap
      intro c hc
      obtain rfl : ']' = c := by simpa using hc
      decide
    have hclose : ∀ c ∈ (e.text ++ rest).head?, c ≠ ']' :=
      head?_ending (fun c => ne_of_isGap (by decide)) (by decide) (by decide)
    exact (lexesTo_leftBracket hopen).append <| (lexesTo_gap left _).append <|
      (lexesTo_bare h hname).append <| (lexesTo_gap right _).append (lexesTo_rightBracket hclose)
  | entry key literal =>
    have hkey : ∀ c ∈ (left.text ++ '=' :: (right.text ++ literal.spelling) ++
        (e.text ++ rest)).head?, isBare c = false := by
      rw [List.append_assoc]
      apply head?_gap fun c => isBare_of_isGap
      intro c hc
      obtain rfl : '=' = c := by simpa using hc
      decide
    exact (lexesTo_bare h.1 hkey).append <| (lexesTo_gap left _).append <|
      (lexesTo_equals _).append <| (lexesTo_gap right _).append <|
        lexesTo_literal h.2 (not_isBare_head_ending e rest)

theorem lexesTo_line (l : Line) (rest : Text) : LexesTo l.text l.lexemes rest := by
  have hclause : LexesTo (l.clause.elim [] (Clause.text l.left l.right))
      (l.clause.elim [] Clause.lexemes) (l.ending.text ++ rest) := by
    cases hc : l.clause with
    | none => exact .nil _
    | some c => exact lexesTo_clause (l.writable c hc) l.left l.right l.ending rest
  exact (lexesTo_gap l.indent _).append (hclause.append (lexesTo_ending l.ending rest))

theorem lexesTo_text (ls : List Line) : LexesTo (textOf ls) (ls.flatMap Line.lexemes) [] := by
  induction ls with
  | nil => exact .nil []
  | cons l ls ih =>
    have hl := (lexesTo_line l (textOf ls ++ [])).append ih
    exact hl

/-! ## Carriage returns -/

theorem return_not_mem_gap (g : Gap) : '\r' ∉ g.text := fun h => absurd (g.isGap _ h) (by decide)

theorem return_not_mem_bare {t : Text} (ht : IsBareWord t) : '\r' ∉ t :=
  fun h => absurd (ht.2 _ h) (by decide)

theorem return_not_mem_ending (e : Ending) : '\r' ∉ e.text := by
  have hremark : '\r' ∉ e.remark := by
    unfold Ending.remark
    split
    · rename_i t ht
      have hcomment : '\r' ∉ t := fun h => absurd (e.inComment t ht _ h) (by decide)
      simp [hcomment]
    · simp
  simp [Ending.text, return_not_mem_gap, hremark]

theorem return_not_mem_clause {c : Clause} (h : c.Writable) (left right : Gap) :
    '\r' ∉ c.text left right := by
  cases c with
  | header name => simp [Clause.text, return_not_mem_gap, return_not_mem_bare h]
  | entry key literal =>
    have hliteral : '\r' ∉ literal.spelling := by
      cases literal with
      | text t =>
        have ht : '\r' ∉ t := fun hm => absurd (h.2.2 _ hm).1 (by decide)
        simp [Literal.spelling, ht]
      | number n => exact return_not_mem_bare (isBareWord_decimal n)
    simp [Clause.text, return_not_mem_gap, return_not_mem_bare h.1, hliteral]

theorem return_not_mem_text (ls : List Line) : '\r' ∉ textOf ls := by
  rw [textOf, List.mem_flatMap]
  rintro ⟨l, -, hl⟩
  simp only [Line.text, List.mem_append, return_not_mem_gap, return_not_mem_ending, false_or,
    or_false] at hl
  cases hc : l.clause with
  | none => simp [hc] at hl
  | some c =>
    rw [hc] at hl
    exact return_not_mem_clause (l.writable c hc) l.left l.right hl

/-! ## Numbers -/

theorem magnitude_decimal (n : Nat) : magnitude 10 (Digits.decimal n) = some n := by
  have hgroups : (Digits.decimal n).splitOn '_' = [Digits.decimal n] :=
    List.splitOn_eq_singleton Nat.underscore_not_in_toDigits
  simp [magnitude, hgroups, Digits.decimal_ne_nil, Digits.read_decimal]

theorem decimal_decimal (n : Nat) : decimal (Digits.decimal n) = some n := by
  rw [decimal, if_neg, magnitude_decimal]
  intro h
  rw [Bool.and_eq_true, decide_eq_true_iff, bne_iff_ne] at h
  obtain rfl := Digits.head?_decimal h.1
  exact h.2 rfl

/-- No sign and no base stands in front. -/
theorem integer_of_digits {t : Text} (h : ∀ c ∈ t, c.isDigit = true) :
    integer t = (decimal t >>= fun n => bounded n) := by
  unfold integer
  split
  case h_5 => rfl
  all_goals simp at h

theorem bounded_natCast {n : Nat} (h : n < 0x8000000000000000) : bounded n = some (n : Int) := by
  rw [bounded, if_pos]
  omega

theorem integer_decimal {n : Nat} (h : n < 0x8000000000000000) :
    integer (Digits.decimal n) = some (n : Int) := by
  rw [integer_of_digits fun c => Digits.isDigit_of_mem_decimal, decimal_decimal,
    Option.bind_eq_bind, Option.bind_some, bounded_natCast h]

/-! ## Sections of a document -/

theorem value_lexeme {l : Literal} (h : l.Writable) (n : Nat) (ls : List Lexeme) :
    value (n + 1) (l.lexeme :: ls) = some (l.value, ls) := by
  cases l with
  | text t => rfl
  | number m =>
    rw [Literal.lexeme, value, integer_decimal h]
    rfl

theorem endLine_ending (e : Ending) (ls : List Lexeme) : endLine (e.lexemes ++ ls) = some ls := by
  unfold Ending.lexemes
  split <;> rfl

section
variable (current : Section) (e : Ending) (ls : List Lexeme)

theorem sections_ending : ∃ k ≤ e.lexemes.length, ∀ n,
    sections (n + k) current (e.lexemes ++ ls) = sections n current ls := by
  unfold Ending.lexemes
  split
  · exact ⟨2, Nat.le_refl _, fun n => by simp [sections]⟩
  · exact ⟨1, Nat.le_refl _, fun n => by simp [sections]⟩

theorem sections_header (n : Nat) (name : Text) :
    sections (n + 1) current ((Clause.header name).lexemes ++ e.lexemes ++ ls) =
      (sections n ⟨[name], false, []⟩ ls).map (current :: ·) := by
  have hheader : header false (.bare name :: .rightBracket false :: (e.lexemes ++ ls)) =
      some (⟨[name], false, []⟩, ls) := by
    simp [header, keys, Lexeme.key?, endLine_ending]
  simp only [Clause.lexemes, List.cons_append, List.nil_append, sections, hheader]
  cases hs : sections n ⟨[name], false, []⟩ ls <;> simp [hs]

theorem sections_entry (n : Nat) {key : Text} {literal : Literal} (h : literal.Writable) :
    sections (n + 1) current ((Clause.entry key literal).lexemes ++ e.lexemes ++ ls) =
      sections n { current with entries := current.entries ++ [(key, literal.value)] } ls := by
  have hentry : entry (.bare key :: .equals :: literal.lexeme :: (e.lexemes ++ ls)) =
      some ([key], literal.value, ls) := by
    simp [entry, keys, Lexeme.key?, value_lexeme h, endLine_ending]
  simp [Clause.lexemes, sections, hentry, insert]

end

/-- A line takes no more steps than it has lexemes. -/
theorem sections_lines (lines : List Line) (current : Section) :
    ∃ k ≤ (lines.flatMap Line.lexemes).length, ∀ n,
      sections (n + k) current (lines.flatMap Line.lexemes) =
        some (sectionsOf current (clausesOf lines)) := by
  induction lines generalizing current with
  | nil => exact ⟨0, Nat.le_refl _, fun n => by simp [sections, clausesOf, sectionsOf]⟩
  | cons l lines ih =>
    rw [List.flatMap_cons, List.length_append, Line.lexemes]
    cases hc : l.clause with
    | none =>
      have hclauses : clausesOf (l :: lines) = clausesOf lines := List.filterMap_cons_none hc
      obtain ⟨j, hj, hending⟩ := sections_ending current l.ending (lines.flatMap Line.lexemes)
      obtain ⟨k, hk, hlines⟩ := ih current
      refine ⟨k + j, ?_, fun n => ?_⟩
      · simp only [Option.elim_none, List.nil_append]
        omega
      · rw [Option.elim_none, List.nil_append, ← Nat.add_assoc, hending, hlines, hclauses]
    | some c =>
      have hclauses : clausesOf (l :: lines) = c :: clausesOf lines := List.filterMap_cons_some hc
      have hw := l.writable c hc
      cases c with
      | header name =>
        obtain ⟨k, hk, hlines⟩ := ih ⟨[name], false, []⟩
        refine ⟨k + 1, ?_, fun n => ?_⟩
        · simp only [Option.elim_some, Clause.lexemes, List.length_append, List.length_cons]
          omega
        · rw [Option.elim_some, ← Nat.add_assoc, sections_header, hlines, hclauses]
          rfl
      | entry key literal =>
        obtain ⟨k, hk, hlines⟩ :=
          ih { current with entries := current.entries ++ [(key, literal.value)] }
        refine ⟨k + 1, ?_, fun n => ?_⟩
        · simp only [Option.elim_some, Clause.lexemes, List.length_append, List.length_cons]
          omega
        · rw [Option.elim_some, ← Nat.add_assoc, sections_entry _ _ _ _ hw.2, hlines, hclauses]
          rfl

/-! ## Whole documents -/

/-- **Lines are read as what they state**, whatever blanks and comments are between. -/
theorem read_text (lines : List Line) :
    read (textOf lines) = some (sectionsOf .top (clausesOf lines)) := by
  have hlexemes := ofText_of_lexesTo (lexesTo_text lines) (return_not_mem_text lines)
  obtain ⟨k, hk, hsections⟩ := sections_lines lines .top
  have hn := hsections ((lines.flatMap Line.lexemes).length - k)
  rw [Nat.sub_add_cancel hk] at hn
  rw [read, hlexemes]
  exact hn

end Toml

end SpiceDeck
