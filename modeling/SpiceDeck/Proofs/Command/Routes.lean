import SpiceDeck.Command.Run
import SpiceDeck.Proofs.Command.Arguments
import SpiceDeck.Proofs.Deck.Decoding
import SpiceDeck.Proofs.Files.Confinement

/-!
# Every route delivers the same

A deck comes from a file or from standard input, and what is made of it goes to standard output or
into a new file. The exit code and the bytes are the same in all four cases (`routes_agree`), those
included that were written before a fault.
-/

namespace SpiceDeck

namespace Command

open Text Utf8

/-! ## What a line asks for -/

/-- What a command line comes to once the configuration is read, whether a choice is made by a flag,
in the configuration or by default. -/
inductive Asks (t : FileTree) (words : List Text) (options : Options) (operand : Text)
    (output : Option Text) : Layout → Prop
  | unwrap {config : Option Text} {settings file : Settings}
      (read : readArguments words = .ok ⟨config, settings, .unwrap operand output⟩)
      (load : Settings.load t config = .ok file)
      (chosen : (settings.orElse file).options = options) :
      Asks t words options operand output .oneLine
  | reflow {config : Option Text} {settings file : Settings} {width : LineWidth}
      (read : readArguments words = .ok ⟨config, settings, .reflow operand output⟩)
      (load : Settings.load t config = .ok file)
      (chosen : (settings.orElse file).options = options)
      (inForce : (settings.orElse file).widthInForce = .ok width) :
      Asks t words options operand output (.wrapped width)

section
variable {t : FileTree} {s : Surroundings} {words : List Text} {layout : Layout} {options : Options}
  {operand : Text} {output : Option Text}

theorem run_asks (h : Asks s.tree words options operand output layout) :
    ∃ message, run s words =
      runRequest s ⟨layout, options, inputOf s.stdin operand, outputOf output⟩ message := by
  cases h with
  | unwrap read load chosen =>
    refine ⟨unwrapMessage operand, ?_⟩
    simp only [run, read, invoke, load, perform, chosen]
  | @reflow _ _ _ width read load chosen inForce =>
    refine ⟨reflowMessage operand width, ?_⟩
    simp only [run, read, invoke, load, perform, chosen, inForce]

theorem asks_commandLine (hw : ∀ n ∈ width? layout, n < widthLimit)
    (ho : ∀ path ∈ output, path ≠ []) (hi : isOperand operand = true) (hne : operand ≠ []) :
    Asks t (commandLine layout options operand output) options operand output layout := by
  have hread : readArguments (commandLine layout options operand output) =
      .ok ⟨none, settingsOf layout options, actionOf layout operand output⟩ :=
    readArguments_commandLine hw ho hi hne
  cases layout with
  | oneLine => exact .unwrap hread rfl rfl
  | wrapped width =>
    have hwidth : LineWidth.ofNat? width.columns = some width := dif_pos width.positive
    refine .reflow hread rfl rfl ?_
    simp [settingsOf, Settings.orElse, Settings.widthInForce, width?, hwidth]

end

/-! ## Where the deck is -/

/-- A deck that an operand stands for: that of standard input, or that of a file whose path cannot be
taken for a flag. -/
inductive Brings (s : Surroundings) (deck : Bytes) : Text → Prop
  | standard (bytes : s.stdin = deck) : Brings s deck standardInput
  | file {path : Text} {loc : Location} (name : path.head? ≠ some '-')
      (found : s.tree.locate path = .ok (loc, .file deck)) : Brings s deck path

theorem isStandardInput_of_head {path : Text} (h : path.head? ≠ some '-') :
    isStandardInput path = false := by
  have hp : [FileTree.separator].intercalate (path.splitOn FileTree.separator) = path :=
    List.intercalate_splitOn FileTree.separator
  unfold isStandardInput
  split
  · rename_i first rest hs
    have hne : first ≠ standardInput := by
      rintro rfl
      rw [hs] at hp
      rw [← hp] at h
      cases rest <;> exact h rfl
    simp [hne]
  · rfl

section
variable {s : Surroundings} {deck : Bytes} {operand : Text} (h : Brings s deck operand)
include h

theorem Brings.isOperand : isOperand operand = true := by
  cases h with
  | standard bytes => decide
  | file name found => simp [Command.isOperand, name]

theorem Brings.ne_nil : operand ≠ [] := by
  cases h with
  | standard bytes => decide
  | file name found =>
    rintro rfl
    cases (FileTree.locate_ok.mp found).1

theorem Brings.prepare (layout : Layout) (options : Options) {output : Option Text}
    (hf : ∀ path ∈ output, s.tree.Fresh path) :
    Request.prepare ⟨layout, options, inputOf s.stdin operand, outputOf output⟩ s.tree =
      .ok (.ofBytes deck) := by
  cases h with
  | standard bytes =>
    rw [← bytes]
    rfl
  | @file path loc name found =>
    have hopen : s.tree.openSource operand = .ok (.ofBytes deck) := by
      rw [openSource_eq, found]
      rfl
    have hi : inputOf s.stdin operand = .path operand := by
      rw [inputOf, isStandardInput_of_head name]
      rfl
    rw [hi]
    cases output with
    | none => simp [Request.prepare, Request.checkPaths, outputOf, Request.openSource, hopen]
    | some path =>
      have hc : Request.checkPaths ⟨layout, options, .path operand, .path path⟩ s.tree = .ok () :=
        Request.checkPaths_apart (FileTree.locate_ok.mp found).2 (by simp [(hf path rfl).locate])
      simp [Request.prepare, outputOf, hc, Request.openSource, hopen]

end

/-! ## Where the result is -/

/-- A run that ends with the code and has put the bytes where they were wanted, and nothing else
anywhere. -/
structure Delivers (s : Surroundings) (output : Option Text) (ended : Ended) (code : Nat)
    (delivered : Bytes) : Prop where
  code : ended.code = code
  standard : output = none → ended.stdout = delivered ∧ ended.tree = s.tree
  file : ∀ path ∈ output, ended.stdout = [] ∧ ∃ loc,
    ended.tree = s.tree.put loc (.file delivered) ∧
      ended.tree.resolve path = .ok (loc, .file delivered)

def exitCode : Except Fault Report → Nat
  | .ok _ => 0
  | .error _ => 1

theorem runRequest_ends {s : Surroundings} {r : Request} {report : Except Fault Report} {out : Bytes}
    {after : FileTree} (h : r.execute s.tree = ⟨report.mapError .io, out, after⟩)
    (message : Report → Text → Text) :
    let ended := runRequest s r message
    ended.code = exitCode report ∧ ended.stdout = out ∧ ended.tree = after := by
  unfold runRequest
  rw [h]
  cases report <;> exact ⟨rfl, rfl, rfl⟩

theorem delivers_runRequest (layout : Layout) (options : Options) {s : Surroundings} {deck : Bytes}
    {operand : Text} {output : Option Text} (hb : Brings s deck operand)
    (hf : ∀ path ∈ output, s.tree.Fresh path) (message : Report → Text → Text) :
    let result := transfer layout options (.ofBytes deck) .unlimited
    Delivers s output
      (runRequest s ⟨layout, options, inputOf s.stdin operand, outputOf output⟩ message)
      (exitCode result.1) result.2.contents := by
  intro result
  have hp := hb.prepare layout options hf
  cases output with
  | none =>
    have he : Request.execute ⟨layout, options, inputOf s.stdin operand, outputOf none⟩ s.tree =
        ⟨result.1.mapError .io, result.2.contents, s.tree⟩ := by
      simp only [Request.execute, hp]
      rfl
    obtain ⟨hcode, hout, htree⟩ := runRequest_ends he message
    refine ⟨hcode, fun _ => ⟨hout, htree⟩, ?_⟩
    intro path hpath
    cases hpath
  | some path =>
    obtain ⟨target, ho⟩ := (hf path rfl).locateOutput
    obtain ⟨hcode, hout, htree⟩ := runRequest_ends (Request.execute_created hp rfl ho) message
    refine ⟨hcode, ?_, ?_⟩
    · intro hn
      cases hn
    · intro path' hpath
      obtain rfl : path = path' := Option.some.inj hpath
      refine ⟨hout, target, htree, ?_⟩
      rw [htree]
      exact FileTree.resolve_put_output ho

/-- **Every route delivers the same.** The exit code and the bytes are functions of the deck, the
layout and the options: code 0 and the lines of all statements if the deck is UTF-8, else code 1 and
the lines of the statements given before the fault. Each command line that asks for that layout and
those options delivers them, whether the operand brings the deck from a file or from standard input,
and whether the output is standard output or a new file. All that can be asked for is asked for by
the line that states it in flags. -/
theorem routes_agree (layout : Layout) (options : Options) (deck : Bytes) :
    ∃ code delivered,
      (∀ t, encode t = deck →
        code = 0 ∧ delivered = encode (ofLines (transferred layout options t))) ∧
      ((∀ t, encode t ≠ deck) →
        let stop := (LineFeed.ofSource (.ofBytes deck)).toStop
        code = 1 ∧ stop.fault = some .invalidUtf8 ∧ delivered = encode (ofLines
          (((Assembly.start options).pushAll stop.lines).ready.flatMap layout.lines))) ∧
      ∀ (s : Surroundings) (operand : Text) (output : Option Text), Brings s deck operand →
        (∀ path ∈ output, s.tree.Fresh path) →
        (∀ words, Asks s.tree words options operand output layout →
          Delivers s output (run s words) code delivered) ∧
        ((∀ n ∈ width? layout, n < widthLimit) →
          Asks s.tree (commandLine layout options operand output) options operand output layout) := by
  refine ⟨exitCode (transfer layout options (.ofBytes deck) .unlimited).1,
    (transfer layout options (.ofBytes deck) .unlimited).2.contents, ?_, ?_, ?_⟩
  · intro t ht
    rw [← ht, transfer_eq layout options (Source.text?_ofBytes_encode t)]
    exact ⟨rfl, Sink.contents_unlimited_accept _⟩
  · intro hne stop
    have hd : decode deck = none := by
      cases hd : decode deck with
      | none => rfl
      | some t => exact absurd (encode_of_decode hd) (hne t)
    obtain ⟨sink, he⟩ := transfer_undecodable layout options (Source.bytes?_ofBytes deck) hd
    have hstop : stop.fault = some .invalidUtf8 := stopped_of_transfer he
    rw [transfer_stopped layout hstop]
    exact ⟨rfl, hstop, Sink.contents_unlimited_accept _⟩
  · intro s operand output hb hf
    refine ⟨?_, ?_⟩
    · intro words ha
      obtain ⟨message, hrun⟩ := run_asks ha
      rw [hrun]
      exact delivers_runRequest layout options hb hf message
    · intro hw
      apply asks_commandLine hw _ hb.isOperand hb.ne_nil
      intro path hpath
      exact (hf path hpath).ne_nil

/-- The line that is no UTF-8 comes while a comment is held. That comment and its statement are lost;
what was held for the statement before is not. -/
theorem routes_agree_undecodable :
    let deck := encode "R1 a\n+ 1\n* kept\n+ 2\nR2 b\n+ 3\n* lost\n".toList ++ [0xFF, 0x0A] ++
      encode "+ 4\n".toList
    let place := ["w".toList]
    let s : Surroundings :=
      ⟨deck, ⟨[(place, .directory), ("a.sp".toList :: place, .file deck)], place⟩⟩
    ∀ operand ∈ ["a.sp".toList, "-".toList], ∀ output ∈ [none, some "b.sp".toList],
      Brings s deck operand ∧ (∀ path ∈ output, s.tree.Fresh path) ∧
        Delivers s output
          (run s (commandLine (.wrapped ⟨4, by decide⟩) ⟨.hold, .nothing⟩ operand output)) 1
          (encode "R1 a\n+ 1\n+ 2\n*\n*+ kept\n".toList) := by
  intro deck place s operand hoperand output houtput
  have hin : Brings s deck operand := by
    have found : s.tree.locate "a.sp".toList = .ok ("a.sp".toList :: place, .file deck) := rfl
    simp only [List.mem_cons, List.not_mem_nil, or_false] at hoperand
    rcases hoperand with rfl | rfl
    · exact .file (by decide) found
    · exact .standard rfl
  have hnew : ∀ path ∈ output, s.tree.Fresh path := by
    intro path hpath
    have hb : path = "b.sp".toList := by
      simp only [List.mem_cons, List.not_mem_nil, or_false] at houtput
      rcases houtput with rfl | rfl
      · cases hpath
      · exact (Option.some.inj hpath).symm
    rw [hb]
    exact ⟨[], "b.sp".toList, place, rfl, .inl rfl, rfl, by decide, by decide, rfl, rfl, rfl⟩
  obtain ⟨code, delivered, -, hbad, hall⟩ :=
    routes_agree (.wrapped ⟨4, by decide⟩) ⟨.hold, .nothing⟩ deck
  obtain ⟨hruns, hasks⟩ := hall s operand output hin hnew
  have hundecodable : ∀ t, encode t ≠ deck := by
    intro t ht
    have hd : decode deck = none := by decide +kernel
    rw [← ht, decode_encode] at hd
    cases hd
  obtain ⟨rfl, -, he⟩ := hbad hundecodable
  obtain rfl : delivered = encode "R1 a\n+ 1\n+ 2\n*\n*+ kept\n".toList :=
    he.trans (by decide +kernel)
  exact ⟨hin, hnew, hruns _ (hasks (by decide))⟩

end Command

end SpiceDeck
