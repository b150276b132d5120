/-
Diagnostics: what was found, where, and in which words. A failure is no diagnostic: it ends a run, because
a limit was reached or a file could not be written.
-/
import DeclKit.Diagnostic.Kind
import DeclKit.Source

set_option autoImplicit false

namespace DeclKit

/-- How grave a diagnostic is. -/
inductive Severity where
  | error
  | warning
deriving DecidableEq, Repr, Inhabited

namespace Severity

/-- The word before a diagnostic that is written on one line. -/
def heading : Severity → String
  | error => "Error"
  | warning => "Warning"

/-- The word for a severity within a sentence. -/
def word : Severity → String
  | error => "error"
  | warning => "warning"

end Severity

/-- A range of bytes in a file. -/
structure Span where
  source : SourceId
  start : Nat
  stop : Nat
deriving DecidableEq, Repr, Inhabited

/-- The span between two offsets; one that would end before it starts is empty. -/
def Span.ofOffsets (source : SourceId) (start stop : Nat) : Span := ⟨source, start, max stop start⟩

/-- A further place that belongs to a diagnostic. -/
structure Related where
  span : Span
  message : String
deriving DecidableEq, Repr

/-- One finding. Without a span it concerns the project as a whole. -/
structure Diagnostic where
  kind : DiagnosticKind
  severity : Severity := .error
  span : Option Span
  message : String
  /-- Lines that explain the message, each step further down. -/
  chain : List String := []
  related : List Related := []
deriving DecidableEq, Repr, Inhabited

namespace Diagnostic

/-- A diagnostic in the plain words of its kind. -/
def plain (kind : DiagnosticKind) (span : Option Span) : Diagnostic :=
  { kind, span, message := kind.plainMessage }

/-- A diagnostic with details. -/
def detailed (kind : DiagnosticKind) (span : Option Span) (args : List String) : Diagnostic :=
  { kind, span, message := kind.message args }

/-- The message with its chain, every line two spaces further in than the one before. -/
def flattened (d : Diagnostic) : String :=
  d.message ++ String.join (d.chain.zipIdx.map fun (line, i) =>
    "\n" ++ Text.repeated (i + 1) "  " ++ line)

/-- The diagnostic is an error. -/
def isError (d : Diagnostic) : Bool := d.severity == .error

/-! ## Order -/

/-- What orders diagnostics first: those of the whole project, then by file and range. -/
def place (d : Diagnostic) : Nat × Nat × Nat × Nat :=
  match d.span with
  | some s => (1, s.source.index, s.start, s.stop)
  | none => (0, 0, 0, 0)

/-- By place, then by code, then by message. -/
def order (a b : Diagnostic) : Ordering :=
  let (a0, a1, a2, a3) := a.place
  let (b0, b1, b2, b3) := b.place
  compare a0 b0 |>.then (compare a1 b1) |>.then (compare a2 b2) |>.then (compare a3 b3)
    |>.then (compare a.kind.code b.kind.code) |>.then (compare a.message b.message)

/-- Drops every element that equals the one before it. -/
def dropRepeats : List Diagnostic → List Diagnostic
  | [] => []
  | [d] => [d]
  | d :: e :: rest => if d = e then dropRepeats (e :: rest) else d :: dropRepeats (e :: rest)

/-- Diagnostics in order, without neighbours that are equal. -/
def sorted (ds : List Diagnostic) : List Diagnostic :=
  dropRepeats (ds.mergeSort fun a b => order a b != .gt)

end Diagnostic

/-! ## Failures -/

/-- Why a run ended without an answer. -/
inductive Failure where
  /-- The allowance of tokens was used up. -/
  | outOfTokens
  /-- Types were nested too deeply. -/
  | tooDeep
  /-- The host did not take a file. -/
  | cannotWrite (path : String)
deriving DecidableEq, Repr, Inhabited

/-- The message of a failure. -/
def Failure.message : Failure → String
  | outOfTokens => "execution limit exceeded"
  | tooDeep => "recursion limit exceeded"
  | cannotWrite path => "cannot write file '" ++ path ++ "'"

end DeclKit
