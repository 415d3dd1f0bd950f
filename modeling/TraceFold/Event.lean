import TraceFold.Bubble
import TraceFold.Report

/-!
# Events

Everything worth noting that happens in a run, as one stream in the order in which it happens.
Watching is not part of the work: the work returns its events, and whoever asked for it decides
which of them to show.  Reports travel in the same stream, so that their place among the other
events is known.
-/

namespace TraceFold

/-- How much interest it takes to want to see an event; the first is of interest to everyone. -/
inductive Severity where
  | error | warn | info | debug | trace
deriving DecidableEq, Repr

namespace Severity

def rank : Severity → Nat
  | error => 0
  | warn => 1
  | info => 2
  | debug => 3
  | trace => 4

def name : Severity → String
  | error => "ERROR"
  | warn => "WARN"
  | info => "INFO"
  | debug => "DEBUG"
  | trace => "TRACE"

/-- All severities, the gravest first. -/
def all : List Severity := [error, warn, info, debug, trace]

end Severity

/-- Something that happened in a run. -/
inductive Event where
  /-- A pattern fitted a bubble that was already claimed in the same attempt. -/
  | lost (pattern : String) (id : BubbleId)
  /-- A pattern turned `count` bubbles into one. -/
  | merged (pattern : String) (count : Nat) (id : BubbleId)
  | reported (report : Report)
  /-- A sweep of a pattern merged nothing. -/
  | foundNothing (pattern : String)
  /-- A pass over the catalog ended; passes are numbered from 1. -/
  | passEnded (number merges attempts : Nat)
  /-- The passes ran out while something was still merging. -/
  | stopped (maxPasses : Nat)
deriving DecidableEq

namespace Event

def severity : Event → Severity
  | lost _ _ | foundNothing _ => .trace
  | merged _ _ _ | passEnded _ _ _ => .debug
  | stopped _ => .warn
  | reported r => match r.level with
    | .error => .error
    | .warning => .warn
    | .info => .info

def message : Event → String
  | lost pattern id =>
    "straw '" ++ pattern ++ "' lost " ++ id.toText ++ ": already claimed in this attempt"
  | merged pattern count id =>
    "straw '" ++ pattern ++ "' merged " ++ toString count ++ " bubbles at " ++ id.toText
  | reported r => r.logText
  | foundNothing pattern => "straw '" ++ pattern ++ "' found nothing"
  | passEnded number merges attempts =>
    "pass " ++ toString number ++ ": " ++ toString merges ++ " merges, " ++ toString attempts
      ++ " attempts"
  | stopped maxPasses =>
    "stopped after " ++ toString maxPasses ++ " passes without reaching a fixpoint"

/-- The report of an event that is one. -/
def report? : Event → Option Report
  | reported r => some r
  | _ => none

/-- The reports among some events, in order. -/
def reports (es : List Event) : List Report := es.filterMap report?

/-- The other events, in order. -/
def withoutReports (es : List Event) : List Event := es.filter fun e => e.report?.isNone

/-- The events that are at least as grave as `least`, in order. -/
def upTo (least : Severity) (es : List Event) : List Event :=
  es.filter fun e => e.severity.rank ≤ least.rank

end Event
end TraceFold
