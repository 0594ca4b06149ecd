import SpiceDeck.Proofs.Command.Routes
import SpiceDeck.Proofs.Query.Listing

/-!
# Listings of a deck

A listing in text has an entry for each statement of a deck. Without what they have up to their first
tab, the entries are what an unwrap of the deck writes (`find_lists_all`).
-/

namespace SpiceDeck

namespace Command

open Text Utf8

/-- What a command line comes to that asks for a listing in text. -/
def AsksListing (t : FileTree) (words : List Text) (options : Options) (operand s : Text) : Prop :=
  ∃ config settings file, readArguments words = .ok ⟨config, settings, .find operand s .text⟩ ∧
    Settings.load t config = .ok file ∧ (settings.orElse file).options = options

/-- The line that asks for a listing and states by flags all that is wanted. -/
def listingLine (options : Options) (operand s : Text) : List Text :=
  Invocation.line ⟨none, ⟨some options.comments, some options.emptyDeck, none⟩, .find operand s .text⟩

theorem asks_listingLine (t : FileTree) (options : Options) {operand : Text} (s : Text)
    (hi : isOperand operand = true) (hne : operand ≠ []) :
    AsksListing t (listingLine options operand s) options operand s := by
  have hsay : Invocation.Sayable
      ⟨none, ⟨some options.comments, some options.emptyDeck, none⟩, .find operand s .text⟩ := by
    refine ⟨?_, ?_, ?_, hi, hne⟩
    · simp [settingValues, Action.verb, Verb.flags]
    · simp
    · simpa [Invocation.paths, Action.paths] using hne
  exact ⟨_, _, {}, readArguments_line hsay, rfl, rfl⟩

section
variable {s : Surroundings} {deck : Bytes} {operand : Text}

theorem Brings.openDeck (h : Brings s deck operand) : openDeck s operand = .ok (.ofBytes deck) := by
  cases h with
  | standard bytes =>
    rw [← bytes]
    rfl
  | file name found =>
    rw [Command.openDeck, isStandardInput_of_head name, openSource_eq, found]
    rfl

theorem run_listing {t substring : Text} {words : List Text} {options : Options}
    (hb : Brings s (encode t) operand) (h : AsksListing s.tree words options operand substring) :
    run s words = succeed s.tree
      (encode (ofLines ((findings substring (statementsOfText options t)).map Finding.entry))) := by
  obtain ⟨config, settings, file, hread, hload, rfl⟩ := h
  have hall := Reader.readAll_text (settings.orElse file).options (Source.text?_ofBytes_encode t)
  simp only [run, hread, invoke, hload, perform, listFindings, hb.openDeck, hall, listingText_eq]

theorem run_unwrap {t : Text} {words : List Text} {options : Options}
    (hb : Brings s (encode t) operand) (h : Asks s.tree words options operand none .oneLine) :
    (run s words).stdout = encode (ofLines (statementsOfText options t)) := by
  have hnew : ∀ path ∈ (none : Option Text), s.tree.Fresh path := fun _ hp => by cases hp
  obtain ⟨message, hrun⟩ := run_asks h
  have hd := delivers_runRequest .oneLine options hb hnew message
  rw [transfer_eq .oneLine options (Source.text?_ofBytes_encode t)] at hd
  rw [hrun, (hd.standard rfl).1, Sink.contents_unlimited_accept, transferred_oneLine]

end

/-- **A listing loses nothing.** For a deck that is a text, whatever is looked for, there is one entry
for each statement, in order. A command line that asks for a listing with these options prints the
entries, one a line, and ends with code 0, whether the operand brings the deck from a file or from
standard input. One that asks for an unwrap with the same options prints what is left of the entries
behind their first tab. All that can be asked for is asked for by the line that states it in flags. -/
theorem find_lists_all (options : Options) (substring t : Text) :
    ∃ entries, Lists substring (statementsOfText options t) entries ∧
      ∀ (s : Surroundings) (operand : Text), Brings s (encode t) operand →
        (∀ words, AsksListing s.tree words options operand substring →
          (run s words).code = 0 ∧ (run s words).tree = s.tree ∧
            (run s words).stdout = encode (ofLines entries)) ∧
        (∀ words, Asks s.tree words options operand none .oneLine →
          (run s words).stdout = encode (ofLines (entries.map behindTab))) ∧
        AsksListing s.tree (listingLine options operand substring) options operand substring ∧
        Asks s.tree (commandLine .oneLine options operand none) options operand none .oneLine := by
  have hl := lists_findings substring (newline_not_mem_statementsOfText options t)
  refine ⟨_, hl, fun s operand hb => ⟨?_, ?_, ?_, ?_⟩⟩
  · intro words h
    rw [run_listing hb h]
    exact ⟨rfl, rfl, rfl⟩
  · intro words h
    rw [hl.statement]
    exact run_unwrap hb h
  · exact asks_listingLine s.tree options substring hb.isOperand hb.ne_nil
  · apply asks_commandLine _ _ hb.isOperand hb.ne_nil
    · intro n hn
      cases hn
    · intro path hp
      cases hp

/-- The statements have tabs of their own, and the first one begins with blanks. -/
theorem find_lists_all_tabs :
    let deck := encode "+\t-1\r\nR1\ta=1 b=2\n\n* c\n".toList
    let place := ["w".toList]
    let s : Surroundings :=
      ⟨deck, ⟨[(place, .directory), ("a.sp".toList :: place, .file deck)], place⟩⟩
    ∀ operand ∈ ["a.sp".toList, "-".toList], Brings s deck operand ∧
      (run s (listingLine ⟨.hold, .nothing⟩ operand "=".toList)).code = 0 ∧
      (run s (listingLine ⟨.hold, .nothing⟩ operand "=".toList)).stdout =
        encode "-1\t \t-1\n1\tR1\ta=1 b=2\n-1\t* c\n".toList ∧
      (run s (commandLine .oneLine ⟨.hold, .nothing⟩ operand none)).stdout =
        encode " \t-1\nR1\ta=1 b=2\n* c\n".toList := by
  intro deck place s operand hoperand
  obtain ⟨entries, hl, hall⟩ :=
    find_lists_all ⟨.hold, .nothing⟩ "=".toList "+\t-1\r\nR1\ta=1 b=2\n\n* c\n".toList
  obtain rfl : entries = ["-1\t \t-1".toList, "1\tR1\ta=1 b=2".toList, "-1\t* c".toList] :=
    hl.eq_map.trans (by decide)
  have hin : Brings s deck operand := by
    have found : s.tree.locate "a.sp".toList = .ok ("a.sp".toList :: place, .file deck) := rfl
    simp only [List.mem_cons, List.not_mem_nil, or_false] at hoperand
    rcases hoperand with rfl | rfl
    · exact .file (by decide) found
    · exact .standard rfl
  obtain ⟨hruns, hunwraps, hasks, hunwrap⟩ := hall s operand hin
  obtain ⟨hcode, -, hout⟩ := hruns _ hasks
  exact ⟨hin, hcode, hout, (hunwraps _ hunwrap).trans (by decide)⟩

end Command

end SpiceDeck
