import GateBench.Dispatch.Dispatcher
import GateBench.Display.DiagramText
import GateBench.Json.Printer
import GateBench.Json.Sorted
import GateBench.Message.Codec

/-!
What a check found, as text and as JSON.
-/

namespace GateBench.Dispatch

open GateBench.Display GateBench.Message

/-- The line of an operation: its name, how many qubits it uses, and whether it is an entry
point. -/
def operationLine (operation : OperationSummary) : String :=
  "  " ++ padRight 28 operation.name.text ++ " " ++ padLeft 2 (toString operation.qubits) ++
    " qubits" ++ if operation.isEntry then " (entry)" else ""

namespace CheckReport

/-- The lines of a report: diagnostics, operations, and the commands offered for these. -/
def lines (report : CheckReport) : List String :=
  report.diagnostics.map (fun diagnostic =>
    diagnostic.severity.text ++ ": " ++ diagnostic.text) ++
    if report.operations.isEmpty then ["No operations found"]
    else
      "Operations:" :: report.operations.map operationLine ++
        "Actions:" :: report.lenses.map fun lens => "  " ++ lens.text

/-- A report as JSON over several lines, with all members in the order of their names. -/
def jsonText (report : CheckReport) : String :=
  Json.pretty <| Json.sorted <| .ofMembers
    [("diagnostics", .array (report.diagnostics.map (·.toJson))),
      ("operations", .array (report.operations.map (·.toJson))),
      ("lenses", .array (report.lenses.map fun lens => .ofString lens.text))]

/-- How many errors a report holds. -/
def errorCount (report : CheckReport) : Nat :=
  report.diagnostics.countP (·.isError)

end CheckReport

end GateBench.Dispatch
