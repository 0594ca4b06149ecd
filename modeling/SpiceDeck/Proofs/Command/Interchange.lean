import SpiceDeck.Command.Run
import SpiceDeck.Proofs.Command.Arguments
import SpiceDeck.Proofs.Text.Utf8

/-!
# Files of settings and flags

What a file of settings states can as well be stated by flags: a run with the file is the run with the
values in force as flags (`settings_interchange`).
-/

namespace SpiceDeck

open Utf8

namespace Settings

/-! ## Values in force -/

/-- That of the flag, else that of the file, else the standard one. -/
def inForce {α : Type} (flag file : Option α) (standard : α) : α :=
  match flag, file with
  | some v, _ => v
  | none, some v => v
  | none, none => standard

theorem getD_orElse {α : Type} (flag file : Option α) (standard : α) :
    (flag <|> file).getD standard = inForce flag file standard := by
  cases flag <;> cases file <;> rfl

theorem options_orElse (flags s : Settings) : (flags.orElse s).options =
    ⟨inForce flags.comments s.comments .split,
      inForce flags.emptyDeck s.emptyDeck .emptyLine⟩ := by
  simp only [options, orElse, getD_orElse]

theorem orElse_none (s : Settings) : s.orElse {} = s := by
  obtain ⟨_ | _, _ | _, _ | _⟩ := s <;> rfl

section
variable {s : Settings}

theorem widthInForce_ok_iff {width : LineWidth} :
    s.widthInForce = .ok width ↔ width.columns = s.width.getD 80 := by
  obtain ⟨columns, positive⟩ := width
  unfold widthInForce
  cases s.width with
  | none => simp [LineWidth.standard, eq_comm]
  | some n =>
    by_cases hn : 0 < n
    · simp [LineWidth.ofNat?, hn, eq_comm]
    · simp [LineWidth.ofNat?, hn]
      omega

theorem widthInForce_error_iff {failure : Failure} :
    s.widthInForce = .error failure ↔ s.width.getD 80 = 0 ∧ failure = .invalidWidth 0 := by
  unfold widthInForce
  cases s.width with
  | none => simp
  | some n =>
    cases n with
    | zero => simp [LineWidth.ofNat?, eq_comm]
    | succ n => simp [LineWidth.ofNat?]

end

/-! ## The file -/

theorem load_file {tree : FileTree} {path t : Text} {loc : Location} {s : Settings}
    (h : tree.locate path = .ok (loc, .file (encode t))) (ht : ofToml t = some s) :
    load tree (some path) = .ok s := by
  have hread : tree.readText path = .ok t := by
    rw [FileTree.readText, h, ok_bind]
    simp only [decode_encode]
  rw [load, hread]
  simp only [ht]

end Settings

namespace Command

/-! ## The same values as flags -/

/-- The settings for which the verb has a flag. -/
def Verb.takes (verb : Verb) (s : Settings) : Settings where
  comments := if .comments ∈ verb.flags then s.comments else none
  emptyDeck := if .emptyDeck ∈ verb.flags then s.emptyDeck else none
  width := if .width ∈ verb.flags then s.width else none

theorem settingValues_takes (verb : Verb) (s : Settings) :
    ∀ v ∈ settingValues (verb.takes s), v.1 ∈ verb.flags := by
  intro v hv
  by_contra hnot
  simp only [settingValues, List.mem_append, List.mem_map, Option.mem_toList] at hv
  rcases hv with (⟨p, hp, rfl⟩ | ⟨e, he, rfl⟩) | ⟨n, hn, rfl⟩
  · simp [Verb.takes, hnot] at hp
  · simp [Verb.takes, hnot] at he
  · simp [Verb.takes, hnot] at hn

section
variable {s : Surroundings} {path : Text} {flags file : Settings} {action : Action}

/-- No action looks at a setting that it has no flag for. -/
theorem perform_takes (settings : Settings) :
    perform s (action.verb.takes settings) action = perform s settings action := by
  cases action <;> rfl

theorem invoke_file (h : Settings.load s.tree (some path) = .ok file) :
    invoke s ⟨some path, flags, action⟩ =
      invoke s ⟨none, action.verb.takes (flags.orElse file), action⟩ := by
  rw [invoke, h]
  simp only [invoke, Settings.load, Settings.orElse_none, perform_takes]

theorem sayable_flags (hw : ∀ n ∈ file.width, n < widthLimit)
    (h : Invocation.Sayable ⟨some path, flags, action⟩) :
    Invocation.Sayable ⟨none, action.verb.takes (flags.orElse file), action⟩ := by
  refine ⟨settingValues_takes _ _, ?_, ?_, h.operand, h.operand_ne_nil⟩
  · intro n hn
    have hwins : n ∈ (flags.orElse file).width := by
      simp only [Verb.takes] at hn
      split at hn
      · exact hn
      · cases hn
    cases hf : flags.width with
    | none => exact hw n (by simpa [Settings.orElse, hf] using hwins)
    | some m => exact h.width n (by simpa [Settings.orElse, hf] using hwins)
  · exact fun p hp => h.paths p (List.mem_append_right _ hp)

theorem run_line {i : Invocation} (h : i.Sayable) : run s i.line = invoke s i := by
  rw [run, readArguments_line h]

end

/-- **A file of settings and flags are interchangeable.** All settings with a width below 2^63 can be
written to a file. However a file states them, whatever the order and whatever blanks and comments are
between, they are what is loaded. Each setting in force is the flag's, else the file's, else the
standard one, and the width fails only if it is zero where it is in force. A run with the file is a run
with the settings in force as flags, and so are the command lines that state the two. -/
theorem settings_interchange {s : Settings} (hw : ∀ n ∈ s.width, n < 0x8000000000000000) :
    (∃ lines, Settings.States lines s ∧ Toml.textOf lines = s.toToml) ∧
      ∀ (given : Surroundings) (path : Text) (loc : Location) (lines : List Toml.Line),
        Settings.States lines s →
        given.tree.locate path = .ok (loc, .file (encode (Toml.textOf lines))) →
        Settings.load given.tree (some path) = .ok s ∧
        ∀ flags : Settings,
          (flags.orElse s).options =
            ⟨Settings.inForce flags.comments s.comments .split,
              Settings.inForce flags.emptyDeck s.emptyDeck .emptyLine⟩ ∧
          (∀ width, (flags.orElse s).widthInForce = .ok width ↔
            width.columns = Settings.inForce flags.width s.width 80) ∧
          (∀ failure, (flags.orElse s).widthInForce = .error failure ↔
            Settings.inForce flags.width s.width 80 = 0 ∧ failure = .invalidWidth 0) ∧
          ∀ action : Action,
            let withFile : Invocation := ⟨some path, flags, action⟩
            let withFlags : Invocation := ⟨none, action.verb.takes (flags.orElse s), action⟩
            invoke given withFile = invoke given withFlags ∧
              (withFile.Sayable → run given withFile.line = run given withFlags.line) := by
  refine ⟨Settings.states_toToml hw, fun given path loc lines hs hl => ?_⟩
  have hload := Settings.load_file hl (Settings.ofToml_of_states hs)
  refine ⟨hload, fun flags => ⟨Settings.options_orElse flags s, ?_, ?_, fun action => ⟨?_, ?_⟩⟩⟩
  · intro width
    rw [Settings.widthInForce_ok_iff, ← Settings.getD_orElse]
    rfl
  · intro failure
    rw [Settings.widthInForce_error_iff, ← Settings.getD_orElse]
    rfl
  · exact invoke_file hload
  · intro hsay
    have hlimit : ∀ n ∈ s.width, n < widthLimit := fun n hn => Nat.lt_trans (hw n hn) (by decide)
    rw [run_line hsay, run_line (sayable_flags hlimit hsay)]
    exact invoke_file hload

/-- A file with all settings, two of them with a comment behind. -/
def annotatedText : Text :=
  ("[unwrap]\ncomment_policy = \"hold\"      # or \"split\"\n" ++
    "empty_input = \"emit-nothing\" # or \"emit-empty-line\"\n\n[wrap]\nwidth = 72\n").toList

theorem states_annotatedText : ∃ lines,
    Settings.States lines ⟨some .hold, some .nothing, some 72⟩ ∧
      Toml.textOf lines = annotatedText := by
  let lines : List Toml.Line :=
    [Toml.Clause.line (.header "unwrap".toList) (by decide),
      { Toml.Clause.line (.entry "comment_policy".toList (.text "hold".toList)) (by decide) with
        ending := .ofComment "      ".toList " or \"split\"".toList (by decide) (by decide) },
      { Toml.Clause.line (.entry "empty_input".toList (.text "emit-nothing".toList)) (by decide) with
        ending := .ofComment [' '] " or \"emit-empty-line\"".toList (by decide) (by decide) },
      ⟨.none, none, .none, .none, ⟨.none, none, by simp⟩, by simp⟩,
      Toml.Clause.line (.header "wrap".toList) (by decide),
      Toml.Clause.line (.entry "width".toList (.number 72)) (by decide)]
  refine ⟨lines, ⟨[⟨.unwrap, [.comments .hold, .emptyDeck .nothing], by decide⟩,
    ⟨.wrap, [.width 72], by decide⟩], ?_, ?_, ?_⟩, ?_⟩
  · decide
  · decide
  · decide
  · decide +kernel

theorem settings_interchange_annotated :
    let place := ["w".toList]
    let path := "spicewrap.toml".toList
    let given : Surroundings :=
      ⟨encode "R1 a b c=1\n".toList,
        ⟨[(place, .directory), (path :: place, .file (encode annotatedText))], place⟩⟩
    let action : Action := .reflow standardInput none
    Settings.load given.tree (some path) = .ok ⟨some .hold, some .nothing, some 72⟩ ∧
      run given (Invocation.line ⟨some path, ⟨some .split, none, some 0⟩, action⟩) =
        run given (Invocation.line ⟨none, ⟨some .split, some .nothing, some 0⟩, action⟩) := by
  intro place path given action
  obtain ⟨lines, hstates, htext⟩ := states_annotatedText
  have found : given.tree.locate path =
      .ok (path :: place, .file (encode (Toml.textOf lines))) := by
    rw [htext]
    rfl
  obtain ⟨hload, hruns⟩ := (settings_interchange (by simp)).2 given path _ _ hstates found
  have hsay : Invocation.Sayable ⟨some path, ⟨some .split, none, some 0⟩, action⟩ := by
    refine ⟨?_, ?_, ?_, ?_, ?_⟩ <;> decide
  exact ⟨hload, ((hruns ⟨some .split, none, some 0⟩).2.2.2 action).2 hsay⟩

end Command

end SpiceDeck
