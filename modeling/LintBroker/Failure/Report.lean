import LintBroker.Failure.Basic

/-! # Fault reports

A contained failure is reported with a summary on the debug channel, and in full on the trace
channel: first the failure that led to it, then a line that says how the two are related, then the
failure itself and its notes, line by line. -/
namespace LintBroker
namespace Failure

/-- A text without the line feeds at its end. -/
def withoutFinalBreaks (s : String) : String :=
  String.ofList ((s.toList.reverse.dropWhile (· == '\n')).reverse)

def noteLines (note : String) : List String := note.splitOn "\n"

/-- What separates a cause from the failure that it caused. -/
def causeLine : String :=
  "\nThe above exception was the direct cause of the following exception:"

/-- What separates a failure from one that arose while it was handled. -/
def contextLine : String :=
  "\nDuring handling of the above exception, another exception occurred:"

def headline (f : Failure) : String :=
  let text := f.text
  withoutFinalBreaks
    (if text.isEmpty then f.kind.qualifiedLabel else f.kind.qualifiedLabel ++ ": " ++ text)

/-- The lines of a full report. A cause is shown in preference to a context. -/
def report : Failure → List String
  | .mk kind args notes cause context =>
    let earlier :=
      match cause, context with
      | some c, _ => report c ++ [causeLine]
      | none, some c => report c ++ [contextLine]
      | none, none => []
    earlier ++ headline (.mk kind args notes cause context) ::
      (notes.flatMap noteLines).map withoutFinalBreaks

def summaryLine (summary : String) (f : Failure) : String := summary ++ ": " ++ f.literal

end Failure
end LintBroker
