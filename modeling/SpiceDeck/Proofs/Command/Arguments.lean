import SpiceDeck.Command.Arguments
import SpiceDeck.Proofs.Files.Paths
import SpiceDeck.Proofs.Settings.Documents

/-!
# Command lines that are read back

A command line that states all that is wanted, each flag in one word with its value, is read as just
that (`readArguments_line`).
-/

namespace SpiceDeck

namespace Command

/-! ## One flag -/

/-- A flag with its value, in one word. -/
def Flag.word (flag : Flag) (value : Text) : Text := '-' :: '-' :: (flag.long ++ '=' :: value)

theorem Flag.long_injective {f g : Flag} (h : f.long = g.long) : f = g := by
  revert h
  cases f <;> cases g <;> decide

theorem Flag.find?_long {flags : List Flag} {flag : Flag} (h : flag ∈ flags) :
    (flags.find? fun f => f.long == flag.long) = some flag := by
  cases hf : flags.find? fun f => f.long == flag.long with
  | none => exact absurd (List.find?_eq_none.mp hf flag h) (by simp)
  | some f =>
    have hf := List.find?_some hf
    rw [Flag.long_injective (beq_iff_eq.mp hf)]

theorem cutValue_append {name : Text} (h : '=' ∉ name) (value : Text) :
    cutValue (name ++ '=' :: value) = (name, some value) := by
  have hne : ∀ c ∈ name, (c != '=') = true := fun c hc => bne_iff_ne.mpr fun he => h (he ▸ hc)
  unfold cutValue
  rw [List.dropWhile_append_of_pos hne, List.takeWhile_append_of_pos hne]
  simp

section
variable {flags : List Flag} {flag : Flag}

theorem readWord_word (h : flag ∈ flags) (value : Text) :
    readWord flags (flag.word value) = .ok (.flag flag (some value)) := by
  have hname : '=' ∉ flag.long := by cases flag <;> decide
  simp only [readWord, Flag.word, cutValue_append hname, Flag.find?_long h]

theorem readFlags_word (h : flag ∈ flags) (ht : flag.takesValue = true) (g : Given) (value : Text)
    (rest : List Text) :
    readFlags flags g (flag.word value :: rest) =
      g.set flag value >>= fun g => readFlags flags g rest := by
  have hend : flag.word value ≠ flagsEnd := by simp [Flag.word, flagsEnd]
  rw [readFlags, if_neg hend, readWord_word h]
  simp [ht]

end

theorem readWord_operand (flags : List Flag) {word : Text} (h : isOperand word = true) :
    readWord flags word = .ok .operand := by
  unfold readWord
  split
  · simp [isOperand] at h
  · simp [isOperand] at h
  · rfl

theorem readFlags_operand (flags : List Flag) (g : Given) {word : Text} (h : isOperand word = true)
    (rest : List Text) : readFlags flags g (word :: rest) = .ok (g, word :: rest) := by
  have hend : word ≠ flagsEnd := by
    rintro rfl
    exact absurd h (by decide)
  rw [readFlags, if_neg hend, readWord_operand flags h]
  rfl

/-! ## Values -/

theorem format_ofName? (f : ListingFormat) : ListingFormat.ofName? f.name = some f := by
  cases f <;> decide

theorem readWidth_decimal {n : Nat} (h : n < widthLimit) :
    readWidth (Digits.decimal n) = some n := by
  unfold readWidth
  split
  · rename_i digits hd
    have hplus : '+' ∈ Digits.decimal n := hd ▸ List.mem_cons_self
    exact absurd (Digits.isDigit_of_mem_decimal hplus) (by decide)
  · simp [Digits.read_decimal, h]

/-! ## Several flags -/

theorem readFlags_words {flags : List Flag} {values : List (Flag × Text)}
    (h : ∀ v ∈ values, v.1 ∈ flags ∧ v.1.takesValue = true) (g : Given) (rest : List Text) :
    readFlags flags g ((values.map fun v => v.1.word v.2) ++ rest) =
      values.foldlM (fun g v => g.set v.1 v.2) g >>= fun g => readFlags flags g rest := by
  induction values generalizing g with
  | nil => rfl
  | cons v values ih =>
    obtain ⟨⟨hv, ht⟩, h⟩ := List.forall_mem_cons.mp h
    rw [List.map_cons, List.cons_append, readFlags_word hv ht, List.foldlM_cons, bind_assoc]
    exact congrArg _ (funext fun g => ih h g)

/-! ## Whole lines -/

def Verb.name : Verb → Text
  | unwrap => "unwrap".toList
  | reflow => "reflow".toList
  | find => "find".toList
  | hier => "hier".toList

theorem Verb.ofName?_name (verb : Verb) : ofName? verb.name = some verb := by
  cases verb <;> decide

theorem Verb.isOperand_name (verb : Verb) : isOperand verb.name = true := by
  cases verb <;> decide

theorem Verb.operand_of_ne_nil (verb : Verb) {word : Text} (h : word ≠ []) :
    verb.operand word = .ok word :=
  if_neg (by simp [h])

/-- A verb with flags, each in one word with its value, and then the operand. -/
def flagLine (verb : Verb) (values : List (Flag × Text)) (operand : Text) : List Text :=
  verb.name :: ((values.map fun v => v.1.word v.2) ++ [operand])

section
variable {verb : Verb} {values : List (Flag × Text)} {g : Given} {operand : Text} {action : Action}
  (hv : ∀ v ∈ values, v.1 ∈ verb.flags ∧ v.1.takesValue = true)
  (hg : values.foldlM (fun g v => g.set v.1 v.2) ({} : Given) = .ok g)
  (hi : isOperand operand = true) (hne : operand ≠ [])
include hv hg hi hne

theorem readOperand_words :
    readOperand verb ((values.map fun v => v.1.word v.2) ++ [operand]) = .ok (g, operand) := by
  have hend : operand ≠ flagsEnd := by
    rintro rfl
    exact absurd hi (by decide)
  rw [readOperand, readFlags_words hv, hg, ok_bind, readFlags_operand _ _ hi, ok_bind]
  simp only [if_neg hend, verb.operand_of_ne_nil hne, readFlags, ok_bind]
  rfl

theorem readArguments_flagLine (ha : verb.action g operand = .ok action) :
    readArguments (flagLine verb values operand) = .ok ⟨g.config, g.settings, action⟩ := by
  have hleading : readFlags leadingFlags {} (flagLine verb values operand) =
      .ok ({}, flagLine verb values operand) :=
    readFlags_operand _ _ (Verb.isOperand_name _) _
  have hconfig : (g.config <|> ({} : Given).config) = g.config := by cases g.config <;> rfl
  rw [readArguments, hleading, ok_bind, flagLine]
  simp only [Verb.ofName?_name, readOperand_words hv hg hi hne, ha, hconfig, ok_bind]
  rfl

end

/-! ## Invocations -/

def Action.verb : Action → Verb
  | unwrap _ _ => .unwrap
  | reflow _ _ => .reflow
  | find _ _ _ => .find
  | hier _ => .hier

def Action.operand : Action → Text
  | unwrap input _ | reflow input _ | find input _ _ => input
  | hier path => path

def Action.values : Action → List (Flag × Text)
  | unwrap _ output | reflow _ output => output.toList.map fun path => (.output, path)
  | find _ substring format => [(.substring, substring), (.format, format.name)]
  | hier _ => []

/-- What the flags of an action leave behind. -/
def Action.given (action : Action) (g : Given) : Given :=
  match action with
  | unwrap _ output | reflow _ output => { g with output }
  | find _ substring format => { g with substring := some substring, format := some format }
  | hier _ => g

def settingValues (s : Settings) : List (Flag × Text) :=
  (s.comments.toList.map fun p => (.comments, p.name)) ++
    (s.emptyDeck.toList.map fun e => (.emptyDeck, e.name)) ++
    s.width.toList.map fun n => (.width, Digits.decimal n)

namespace Invocation

def values (i : Invocation) : List (Flag × Text) :=
  (i.config.toList.map fun path => (.config, path)) ++ settingValues i.settings ++ i.action.values

/-- The line that states by flags all that is wanted. -/
def line (i : Invocation) : List Text := flagLine i.action.verb i.values i.action.operand

/-- What a line can state: there is a flag of the verb for each setting, no width is too large, no
path is empty, and the operand cannot be taken for a flag. -/
structure Sayable (i : Invocation) : Prop where
  settings : ∀ v ∈ settingValues i.settings, v.1 ∈ i.action.verb.flags
  width : ∀ n ∈ i.settings.width, n < widthLimit
  paths : ∀ path ∈ i.paths, path ≠ []
  operand : isOperand i.action.operand = true
  operand_ne_nil : i.action.operand ≠ []

end Invocation

theorem takesValue_settingValues (s : Settings) :
    ∀ v ∈ settingValues s, v.1.takesValue = true := by
  obtain ⟨_ | _, _ | _, _ | _⟩ := s <;> simp [settingValues, Flag.takesValue]

theorem actionValues_taken (action : Action) :
    ∀ v ∈ action.values, v.1 ∈ action.verb.flags ∧ v.1.takesValue = true := by
  cases action <;> simp [Action.values, Action.verb, Verb.flags, Flag.takesValue]

/-- No flag comes twice, so each finds its place empty. -/
theorem set_settingValues {s : Settings} {g : Given} (hw : ∀ n ∈ s.width, n < widthLimit)
    (hg : g.settings = {}) :
    (settingValues s).foldlM (fun g v => g.set v.1 v.2) g = .ok { g with settings := s } := by
  obtain ⟨_, _, _, _, _, _⟩ := g
  obtain rfl := hg
  obtain ⟨_ | _, _ | _, _ | _⟩ := s <;>
    simp_all [settingValues, Given.set, once, CommentPolicy.ofName?_name, EmptyDeck.ofName?_name,
      readWidth_decimal, pure, Except.pure]

theorem set_output {output : Option Text} (hp : ∀ path ∈ output, path ≠ []) {g : Given}
    (ho : g.output = none) :
    (output.toList.map fun path => (Flag.output, path)).foldlM (fun g v => g.set v.1 v.2) g =
      .ok { g with output } := by
  obtain ⟨_, _, _, _, _, _⟩ := g
  obtain rfl := ho
  cases output with
  | none => rfl
  | some path => simp [Given.set, once, readPath, hp path rfl, pure, Except.pure]

theorem set_actionValues {action : Action} (hp : ∀ path ∈ action.paths, path ≠ []) {g : Given}
    (ho : g.output = none) (hs : g.substring = none) (hf : g.format = none) :
    action.values.foldlM (fun g v => g.set v.1 v.2) g = .ok (action.given g) := by
  have houtput : ∀ {input : Text} {output : Option Text},
      (∀ path ∈ input :: output.toList, path ≠ []) → ∀ path ∈ output, path ≠ [] :=
    fun hp path h => hp path (List.mem_cons_of_mem _ (Option.mem_toList.mpr h))
  cases action with
  | unwrap input output => exact set_output (houtput hp) ho
  | reflow input output => exact set_output (houtput hp) ho
  | find input substring format =>
    simp [Action.values, Action.given, Given.set, once, hs, hf, format_ofName?, pure, Except.pure]
  | hier path => rfl

theorem verb_action (action : Action) (g : Given) :
    action.verb.action (action.given g) action.operand = .ok action := by
  cases action <;> rfl

/-- **A line says what it states.** -/
theorem readArguments_line {i : Invocation} (h : i.Sayable) : readArguments i.line = .ok i := by
  have htaken : ∀ v ∈ i.values, v.1 ∈ i.action.verb.flags ∧ v.1.takesValue = true := by
    intro v hv
    rw [Invocation.values, List.mem_append, List.mem_append] at hv
    rcases hv with (hv | hv) | hv
    · obtain ⟨path, -, rfl⟩ := List.mem_map.mp hv
      cases i.action <;> simp [Action.verb, Verb.flags, Flag.takesValue]
    · exact ⟨h.settings v hv, takesValue_settingValues _ v hv⟩
    · exact actionValues_taken i.action v hv
  have hconfig : (i.config.toList.map fun path => (Flag.config, path)).foldlM
      (fun g v => g.set v.1 v.2) ({} : Given) = .ok { config := i.config } := by
    cases hc : i.config with
    | none => rfl
    | some path =>
      have hne : path ≠ [] := h.paths path (by simp [Invocation.paths, hc])
      simp [Given.set, once, readPath, hne, pure, Except.pure]
  have haction : ∀ path ∈ i.action.paths, path ≠ [] :=
    fun path hp => h.paths path (List.mem_append_right _ hp)
  have hset : i.values.foldlM (fun g v => g.set v.1 v.2) ({} : Given) =
      .ok (i.action.given { config := i.config, settings := i.settings }) := by
    rw [Invocation.values, List.foldlM_append, List.foldlM_append, hconfig, ok_bind,
      set_settingValues h.width rfl, ok_bind, set_actionValues haction rfl rfl rfl]
  have hread := readArguments_flagLine htaken hset h.operand h.operand_ne_nil
    (verb_action i.action _)
  rw [Invocation.line, hread]
  obtain ⟨config, settings, action⟩ := i
  cases action <;> rfl

/-! ## Layouts -/

/-- The verb that writes statements in a layout. -/
def verbOf : Layout → Verb
  | .oneLine => .unwrap
  | .wrapped _ => .reflow

def width? : Layout → Option Nat
  | .oneLine => none
  | .wrapped width => some width.columns

section
variable (layout : Layout) (options : Options) (operand : Text) (output : Option Text)

def flagValues : List (Flag × Text) :=
  (.comments, options.comments.name) :: (.emptyDeck, options.emptyDeck.name) ::
    ((width? layout).toList.map fun n => (.width, Digits.decimal n)) ++
    output.toList.map fun path => (.output, path)

/-- The line that states a layout, the options and a route. -/
def commandLine : List Text :=
  (verbOf layout).name ::
    (((flagValues layout options output).map fun v => v.1.word v.2) ++ [operand])

def settingsOf : Settings := ⟨some options.comments, some options.emptyDeck, width? layout⟩

def actionOf : Action :=
  match layout with
  | .oneLine => .unwrap operand output
  | .wrapped _ => .reflow operand output

theorem commandLine_eq : commandLine layout options operand output =
    Invocation.line ⟨none, settingsOf layout options, actionOf layout operand output⟩ := by
  cases layout <;> rfl

end

section
variable {layout : Layout} {options : Options} {operand : Text} {output : Option Text}
  (hw : ∀ n ∈ width? layout, n < widthLimit) (ho : ∀ path ∈ output, path ≠ [])
  (hi : isOperand operand = true) (hne : operand ≠ [])
include hw ho hi hne

theorem sayable_layout :
    Invocation.Sayable ⟨none, settingsOf layout options, actionOf layout operand output⟩ := by
  have hp : ∀ path ∈ operand :: output.toList, path ≠ [] :=
    List.forall_mem_cons.mpr ⟨hne, fun path h => ho path (Option.mem_toList.mp h)⟩
  have hs : ∀ v ∈ settingValues (settingsOf layout options),
      v.1 ∈ (actionOf layout operand output).verb.flags := by
    cases layout <;> simp [settingsOf, settingValues, width?, actionOf, Action.verb, Verb.flags]
  cases layout <;> exact ⟨hs, hw, hp, hi, hne⟩

theorem readArguments_commandLine : readArguments (commandLine layout options operand output) =
    .ok ⟨none, settingsOf layout options, actionOf layout operand output⟩ := by
  rw [commandLine_eq]
  exact readArguments_line (sayable_layout hw ho hi hne)

end

end Command

end SpiceDeck
