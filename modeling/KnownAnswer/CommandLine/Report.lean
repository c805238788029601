import KnownAnswer.Conformance.Harness

/-!
# The written report

The lines that a run prints, and writers that may run full while they are printed.
-/

namespace KnownAnswer.CommandLine

open Conformance (Report Summary)

/-! ## Lines -/

/-- A computed output, with its length. -/
def dumpLine (output : Bytes) : String :=
  "  " ++ toString output.length ++ " bytes: " ++ Hex.encode output

/-- The report line of a vector, and its output if that was kept. -/
def reportLines (report : Report) : List String :=
  report.line :: (report.output.map dumpLine).toList

/-- All lines of a run: those of its vectors in order, then the summary. -/
def lines (summary : Summary) : List String :=
  summary.reports.flatMap reportLines ++ [summary.line]

/-- A line as it is written, with its end. -/
def lineBytes (line : String) : Bytes := Bytes.ofText (line ++ "\n")

/-! ## Writers -/

/-- A writer that takes bytes up to its capacity, if it has one. -/
structure Writer where
  capacity : Option Nat
  written : Bytes := []

/-- What a writer that is full says. -/
def Writer.fullReason : String := "disk full"

/-- Offers bytes to a writer and tells whether it took them all. -/
def Writer.offer (writer : Writer) (bytes : Bytes) : Writer × Bool :=
  match writer.capacity with
  | none => ({ writer with written := writer.written ++ bytes }, true)
  | some capacity =>
    let room := capacity - writer.written.length
    ({ writer with written := writer.written ++ bytes.take room }, bytes.length ≤ room)

/-- Writes lines until one is not taken. -/
def Writer.writeLines (writer : Writer) : List String → Writer × Bool
  | [] => (writer, true)
  | line :: rest =>
    match writer.offer (lineBytes line) with
    | (writer, true) => writer.writeLines rest
    | (writer, false) => (writer, false)

end KnownAnswer.CommandLine
