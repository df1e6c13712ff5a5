import SharedConstants.Diagnostic
import SharedConstants.Text.Json

/-!
# Reports

Diagnostics are reported as text for people or as one JSON text for programs.
-/
namespace SharedConstants

inductive ReportFormat
  | plain
  | json
  deriving DecidableEq, Repr

namespace Diagnostic

/-- A diagnostic for programs. -/
def toJson (d : Diagnostic) : JsonValue := .object
  [("code", .text d.code.text), ("kind", .text d.code.kind),
    ("phase", .text d.code.phase.label), ("message", .text d.message),
    ("constant", .ofText? d.constant), ("profile", .ofText? d.profile),
    ("source", .ofText? d.source),
    ("span", match d.span with
      | none => .null
      | some span => .array [.integer span.start, .integer span.stop]),
    ("notes", .array (d.notes.map .text)), ("hint", .text d.hint)]

/-- The report of diagnostics. -/
def reportAll (format : ReportFormat) (ds : List Diagnostic) : String :=
  match format with
  | .plain => String.join (ds.map fun d => d.report ++ "\n")
  | .json => (JsonValue.object [("errors", .array (ds.map toJson))]).write 0 ++ "\n"

end Diagnostic

end SharedConstants
