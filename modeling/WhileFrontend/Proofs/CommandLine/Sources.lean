import WhileFrontend.Proofs.CommandLine.Files
import WhileFrontend.Proofs.CommandLine.Stages
import WhileFrontend.Proofs.Token.LineEnds

/-!
# Programs from files and from arguments

A program text gives the same whether it is the argument itself or stands in a file
(`run_file_eq_run_text`). From a file comes the text that was encoded, with its line ends unified
(`decodeSource_encode`), and all that a request makes of a text it makes of the tokens
(`textOf_eq_of_tokenize`).
-/

namespace WhileFrontend.CommandLine

variable {σ : Type}

/-- What a request makes of a text, report of a failure included, depends on the tokens alone. -/
theorem textOf_eq_of_tokenize {s s' : String} (h : tokenize s = tokenize s') (r : Request) :
    r.textOf s = r.textOf s' := by
  have htokens : tokenLines s = tokenLines s' := by rw [tokenLines, tokenLines, h]
  have htree : treeText r.layout s = treeText r.layout s' := by
    rw [treeText, treeText, parse, parse, h]
  rw [Request.textOf, Request.textOf, htokens, htree]

/--
**A file gives what its text gives.** Where a file with the name of a program holds the UTF-8 bytes
of a text, a request for the file ends as the same request for the text does: with the same output
and the same files left behind, or with the same failure, on any standard output.
-/
theorem run_file_eq_run_text (disk : Disk (StateM σ)) (console : Console) (files : σ) (r : Request)
    {name text : String} (hname : name.endsWith ".while" = true)
    (hread : (disk.read name).run files = (.ok (Text.Utf8.encode text.toList), files)) :
    (({ r with source := name, isText := false } : Request).run disk console).run files
      = (({ r with source := text, isText := true } : Request).run disk console).run files := by
  have hfile : (Request.load disk { r with source := name, isText := false }).run files
      = (.ok (String.ofList (Text.unifyNewlines text.toList)), files) := by
    rw [run_load, if_neg Bool.false_ne_true, if_pos hname, hread]
    simp only [decodeSource_encode]
  have htext : (Request.load disk { r with source := text, isText := true }).run files
      = (.ok text, files) := by
    rw [run_load, if_pos rfl]
  have htokens : tokenize (String.ofList (Text.unifyNewlines text.toList)) = tokenize text := by
    rw [tokenize_unifyNewlines, String.ofList_toList]
  rw [run_request, run_request, hfile, htext]
  simp only [textOf_eq_of_tokenize htokens]
  rfl

/-- A byte order mark, line ends of all sorts, and an output into the source file itself. -/
theorem run_file_eq_run_text_lineEnds :
    let text := "\ufeffx\r\n:=\r1;\n"
    let files : Folder := .ofEntries [("a.while", .file (Text.Utf8.encode text.toList))]
    let r : Request := { source := "", out := some "a.while", pretty := true, tokensOnly := true }
    "a.while".endsWith ".while" = true ∧
    (Folder.disk.read "a.while").run files = (.ok (Text.Utf8.encode text.toList), files) ∧
    (({ r with source := "a.while", isText := false } : Request).run Folder.disk).run files
      = (({ r with source := text, isText := true } : Request).run Folder.disk).run files := by
  intro text files r
  have hname : "a.while".endsWith ".while" = true := by decide +kernel
  have hfollow : files.follow (startOf "a.while") (pathParts "a.while") = .ok ["a.while"] :=
    Folder.follow_name (by decide +kernel) (by decide +kernel) (by decide +kernel) (by decide)
      (by decide)
  have hentry : files.entryAt? ["a.while"] = some (.file (Text.Utf8.encode text.toList)) := by
    decide +kernel
  have hnull : "a.while".contains '\x00' = false := by
    rw [String.contains_char_eq]
    decide
  have hread : (Folder.disk.read "a.while").run files
      = (.ok (Text.Utf8.encode text.toList), files) := by
    rw [Folder.run_read, Folder.read_of_follow hnull (by decide +kernel) hfollow hentry]
  exact ⟨hname, hread, run_file_eq_run_text Folder.disk .lenient files r hname hread⟩

end WhileFrontend.CommandLine
