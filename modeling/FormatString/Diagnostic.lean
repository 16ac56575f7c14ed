import FormatString.Directive.Basic

/-!
# Diagnostics and their receivers

A call that meets something wrong reports it: what it was and at which offset of the format string.
Reports go to the receiver set for the call, and for calls without one to the receiver installed for
the whole process.
-/

namespace FormatString

/-- What went wrong. -/
inductive DiagnosticKind where
  | malformed (error : DirectiveError)
  | notEnoughArguments
  | badType
  | missingTarget
  | tooManySlots (limit : Nat)
  | missingSlot (index : Nat)
  /-- A number did not fit its target and was clamped, and reading went on. -/
  | rangeOverflow
  deriving DecidableEq

/-- The text reported for it. -/
def DiagnosticKind.message : DiagnosticKind → String
  | malformed error => s!"malformed directive: {error.message}"
  | notEnoughArguments => "argument list is exhausted"
  | badType => "argument type does not suit the directive"
  | missingTarget => "out-argument list is exhausted"
  | tooManySlots limit => s!"more than {limit} distinct argument slots"
  | missingSlot index => s!"slot {index} has no argument"
  | rangeOverflow => "scanned value clamped to the out-argument's range"

/-- A report. -/
structure Diagnostic where
  offset : Nat
  kind : DiagnosticKind
  deriving DecidableEq

/-- A receiver of diagnostics: one that keeps them under its name, or one that drops them. -/
inductive Receiver where
  | silent
  | log (name : String)
  deriving DecidableEq

/-- A diagnostic and the name of the log it was kept in. -/
structure LogEntry where
  log : String
  diagnostic : Diagnostic
  deriving DecidableEq

/-- What a receiver keeps of the diagnostics it is handed. -/
def Receiver.keep (r : Receiver) (ds : List Diagnostic) : List LogEntry :=
  match r with
  | silent => []
  | log name => ds.map (⟨name, ·⟩)

/-- The receiver of the process. -/
structure Registry where
  installed : Receiver := .silent

namespace Registry

/-- Installs a receiver and returns the one it replaces. -/
def install (g : Registry) (r : Receiver) : Registry × Receiver := (⟨r⟩, g.installed)

/-- What is kept of the diagnostics of a call that has a receiver of its own, or none. -/
def report (g : Registry) (own : Option Receiver) (ds : List Diagnostic) : List LogEntry :=
  (own.getD g.installed).keep ds

end Registry

end FormatString
