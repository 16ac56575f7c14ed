import Mathlib
import FormatString.Proofs.Reader.Reports
import FormatString.Proofs.Writer.Reports

/-!
# Diagnostics of a process

The reports of a call go to the receiver that is set for it, or else to the receiver of the process
at that moment. A process is the list of its `Registry.Event`s: a receiver is installed, or a
diagnostic is reported, on behalf of a call that has a receiver of its own or none. A call
contributes one event for each of its diagnostics.

`ReportingCall.Accounts` says which diagnostics a call has, and `Registry.run` where they end up.
-/

namespace FormatString

/-! ## What calls report -/

/-- A call that may report something, with all it is given. -/
inductive ReportingCall : Type 1 where
  | write {w : Width} {σ : Type} (config : Config) (template : Text w) (cursor : Cursor)
    (sink : FillSink w σ) (s : σ)
  | writeOrdered {w : Width} {σ : Type} (config : Config) (template : Text w) (args : List Arg)
    (sink : FillSink w σ) (s : σ)
  | read {w : Width} (config : Config) (input template : Text w) (targets : List Target)

namespace ReportingCall

/-- The settings. -/
def config : ReportingCall → Config
  | write config .. => config
  | writeOrdered config .. => config
  | read config .. => config

/-- What the call reports, in order. -/
def diagnostics : ReportingCall → List Diagnostic
  | write config template cursor sink s => (config.vformatInto template cursor sink s).diagnostics
  | writeOrdered config template args sink s =>
    (config.formatOrderedInto template args sink s).diagnostics
  | read _ input template targets => (scan input template targets).diagnostics

/-- Diagnostics are those of a call if they are what happens on the way of it. A writing call
reports what `ReportedResult` says of its result, at the place where the error arises. A reading
call goes along the directives it matches and reports each number that overflows, and then what
`ReportedEnd` says of its result. -/
inductive Accounts : ReportingCall → List Diagnostic → Prop where
  | write {w : Width} {σ : Type} {config : Config} {template : Text w} {cursor : Cursor}
    {sink : FillSink w σ} {s : σ} {ds : List Diagnostic}
    (hway : config.write sink template cursor s
      = ⟨config.vformatInto template cursor sink s, ds⟩)
    (hresult : ReportedResult (config.vformatInto template cursor sink s).result ds) :
    Accounts (.write config template cursor sink s) ds
  | writeOrdered {w : Width} {σ : Type} {config : Config} {template : Text w} {args : List Arg}
    {sink : FillSink w σ} {s : σ} {ds : List Diagnostic}
    (hway : config.writeOrdered sink template args s
      = ⟨config.formatOrderedInto template args sink s, ds⟩)
    (hresult : ReportedResult (config.formatOrderedInto template args sink s).result ds) :
    Accounts (.writeOrdered config template args sink s) ds
  | read {w : Width} {config : Config} {input template : Text w} {targets : List Target}
    {overflows last : List Diagnostic}
    (horder : (scanMatches input template targets).map (fun step ↦ (step.offset, step.directive))
      <+: directivesOf (pieces .scan template))
    (hsteps : Reported (scanMatches input template targets) overflows)
    (hend : ReportedEnd (scan input template targets).result last) :
    Accounts (.read config input template targets) (overflows ++ last)

theorem accounts_diagnostics (call : ReportingCall) : call.Accounts call.diagnostics := by
  cases call with
  | write config template cursor sink s =>
    exact .write (config.write_eq sink template cursor s) (Outcome.reportedResult _)
  | writeOrdered config template args sink s =>
    exact .writeOrdered (config.writeOrdered_eq sink template args s) (Outcome.reportedResult _)
  | read config input template targets =>
    obtain ⟨overflows, last, heq, hsteps, hend⟩ := exists_reported_scan input template targets
    rw [diagnostics, heq]
    exact .read (matchSteps_in_order _ _) hsteps hend

end ReportingCall

/-! ## Where reports go -/

/-- What happens in a process. -/
inductive Registry.Event where
  | install (r : Receiver)
  | report (own : Option Receiver) (d : Diagnostic)

/-- The receiver an event installs. -/
def Registry.Event.installed? : Event → Option Receiver
  | install r => some r
  | report .. => none

/-- What the diagnostics of a call are to the process. -/
def ReportingCall.events (call : ReportingCall) : List Registry.Event :=
  call.diagnostics.map (.report call.config.receiver)

namespace Registry

/-- Goes through the events of a process and collects what is kept of the reports. -/
def run (g : Registry) : List Event → Registry × List LogEntry
  | [] => (g, [])
  | .install r :: rest => run (g.install r).1 rest
  | .report own d :: rest =>
    let after := run g rest
    (after.1, g.report own [d] ++ after.2)

variable (g : Registry)

theorem run_append (xs ys : List Event) :
    g.run (xs ++ ys) = (((g.run xs).1.run ys).1, (g.run xs).2 ++ ((g.run xs).1.run ys).2) := by
  induction xs generalizing g with
  | nil => rfl
  | cons e rest ih =>
    cases e with
    | install r => exact ih _
    | report own d => rw [List.cons_append, run, run, ih, List.append_assoc]

/-- Reporting one by one is reporting all at once. -/
theorem run_reports (own : Option Receiver) (ds : List Diagnostic) :
    g.run (ds.map (.report own)) = (g, g.report own ds) := by
  induction ds with
  | nil => rw [report]; cases own.getD g.installed <;> rfl
  | cons d rest ih =>
    rw [List.map_cons, run, ih, report, report, report]
    cases own.getD g.installed <;> rfl

/-- The receiver of a process is the one that was installed last. -/
theorem installed_run (history : List Event) :
    (g.run history).1.installed
      = (history.filterMap Event.installed?).getLast?.getD g.installed := by
  induction history generalizing g with
  | nil => rfl
  | cons e rest ih =>
    cases e with
    | install r =>
      have hinstalled : (Event.install r).installed? = some r := rfl
      rw [run, ih, List.filterMap_cons_some hinstalled, List.getLast?_cons, Option.getD_some]
      rfl
    | report own d =>
      have hinstalled : (Event.report own d).installed? = none := rfl
      rw [run, List.filterMap_cons_none hinstalled]
      exact ih g

end Registry

/-- **Diagnostics account for every call.** A call reports what happens on the way of it. All of
that goes to the receiver set for the call, and if there is none to the receiver installed last,
whatever has happened in the process before. -/
theorem diagnostics_account_for_call (g : Registry) (history : List Registry.Event)
    (call : ReportingCall) :
    call.Accounts call.diagnostics ∧
      (g.run (history ++ call.events)).2 = (g.run history).2 ++
        (call.config.receiver.getD
          ((history.filterMap Registry.Event.installed?).getLast?.getD g.installed)).keep
            call.diagnostics := by
  refine ⟨call.accounts_diagnostics, ?_⟩
  rw [g.run_append, ReportingCall.events, Registry.run_reports, ← g.installed_run]
  rfl

end FormatString
