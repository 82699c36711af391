import Componentry.Scenario.Journal

/-!
# Observers

An observer hears every notice of a registry, after those that were added before it.  A
scripted observer enters the notice in the journal and may then panic; a logging one writes
a line to the log; a silent one does nothing.  The registry itself also writes a line to the
log about each disposal that failed.
-/

namespace Componentry.Scenario

/-- Who hears notices. -/
inductive Observer where
  /-- Enters notices in the journal, and panics on those with a listed event and name. -/
  | scripted (label : String) (panicOn : List (String × Name))
  /-- Does nothing. -/
  | silent
  /-- Writes notices to the log under a heading. -/
  | logging (heading : String)

/-- The heading under which notices are logged unless another one is asked for. -/
def defaultHeading : String := "ferrous-lifecycle"

/-- The line of the log for a notice. -/
def Notice.logLine (heading : String) (notice : Notice) : LogLine :=
  let line (level : Level) (extra : List (String × Field)) (message : String) : LogLine :=
    ⟨level, [("prefix", .text heading), ("component", .text notice.name)] ++ extra
      ++ [("message", .text message)]⟩
  match notice with
  | .creating _ => line .debug [] "creating"
  | .created _ => line .info [] "created"
  | .creationFailed _ e => line .error [("error", .text e.message)] "creation failed"
  | .destroyed _ => line .debug [] "destroyed"
  | .disposalFailed _ cause => line .error [("reason", .text cause.reason)] "disposal failed"

/-- The line of the log that the registry itself writes for a notice. -/
def Notice.ownLogLine? : Notice → Option LogLine
  | .disposalFailed n (.failed text) =>
    some ⟨.error, [("component", .text n), ("error", .text text),
      ("message", .text "disposal callback failed")]⟩
  | .disposalFailed n (.panicked text) =>
    some ⟨.error, [("component", .text n), ("panic", .text text),
      ("message", .text "disposal callback panicked")]⟩
  | _ => none

/-- The line of the log about disposals that are due when a container is given up. -/
def pendingLogLine (pending : Nat) : LogLine :=
  ⟨.warn, [("pending", .num pending),
    ("message", .text
      "container dropped with undisposed components; call destroy_all() before dropping")]⟩

namespace Observer

/-- What an observer adds to the journal when it hears a notice, and whether it panics. -/
def react (notice : Notice) : Observer → List Entry × Option Panic
  | scripted label panicOn =>
    let panics := (notice.event, notice.name) ∈ panicOn
    ([.heard label notice],
      if panics then
        some (.text ("observer " ++ label ++ " panicked on " ++ notice.event))
      else none)
  | silent => ([], none)
  | logging heading => ([.logged (Notice.logLine heading notice)], none)

/-- What observers add to the journal when they hear a notice one after the other, up to the
first that panics. -/
def reactAll (notice : Notice) : List Observer → List Entry × Option Panic
  | [] => ([], none)
  | o :: rest =>
    match o.react notice with
    | (entries, some p) => (entries, some p)
    | (entries, none) =>
      let (more, p) := reactAll notice rest
      (entries ++ more, p)

end Observer

end Componentry.Scenario
