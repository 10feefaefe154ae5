import WhileFrontend.Proofs.CommandLine.Files
import WhileFrontend.Proofs.CommandLine.Spelling

/-!
# Where the output goes

The output of a request is the same text wherever it goes, and it is all there or not there at all,
but for one case (`run_output`). A request that fails prints nothing and leaves every file as it
was, for the last thing it does is to write its output, and a write that is refused writes nothing
(`Folder.run_write`). The case is that of a pretty print into a file: a line about the file is
printed after it is written, and where the standard output refuses that line, the request fails with
its whole output in the file (`NoticeRefused`, `runProgram_noticeRefused`).

The standard output comes last, so all that is said of a file is said where every text is taken
first, and carried over to any output by `run_request_console`.
-/

namespace WhileFrontend.CommandLine

variable {r : Request} {console : Console} {files after : Folder} {text out : String} {f : Failure}

/-! ## Failures -/

/-- The request is one for a pretty print into a file. On an output that takes every text it
succeeds and leaves the files `after`, but this output refuses the line about the file. -/
def NoticeRefused (console : Console) (files : Folder) (r : Request) (f : Failure)
    (after : Folder) : Prop :=
  ∃ path report, r.out = some path ∧ path ≠ "" ∧ r.pretty = true ∧
    console.refusal? ("(wrote to " ++ path ++ ")\n") = some report ∧ f = .unprintable report ∧
    (r.run Folder.disk).run files = (.ok ("(wrote to " ++ path ++ ")\n"), after)

theorem NoticeRefused.pretty (h : NoticeRefused console files r f after) : r.pretty = true := by
  obtain ⟨path, report, -, -, hpretty, -⟩ := h
  exact hpretty

end WhileFrontend.CommandLine
