import TraceJournal.Record.Argument
import TraceJournal.Record.Basic
import TraceJournal.Text.Quoted

/-!
# Tracers

A tracer stands for one owner and one interface, in whose names it emits events. An interface with
typed methods keeps each argument in its JSON form.

Library tracelog-pipeline, module `emitter`; SPEC_FULL §4.1.
-/

namespace TraceJournal

/-- Emits events of one interface for one owner. Source: tracelog-pipeline `Tracer`. -/
structure Tracer where
  owner : String
  interface : String
  deriving DecidableEq

namespace Tracer

/-- The record of an event at a time. Source: tracelog-pipeline `Tracer.emit`, the record that it
makes. -/
def record (t : Tracer) (now : Instant) (method : String) (args : List Json) : Record :=
  .atTime now t.owner t.interface method args

/-- The form for diagnostics. Source: tracelog-pipeline, the diagnostics of `Tracer`. -/
def debug (t : Tracer) : String :=
  "Tracer \x7b owner: " ++ Text.quoted t.owner ++ ", interface: " ++ Text.quoted t.interface ++
    " \x7d"

end Tracer

/-- A typed event: the name of the method and its arguments in order. Source: tracelog-pipeline
`tracer_interface`, a call of one of its methods. -/
structure Event where
  method : String
  arguments : List Argument

/-- The JSON forms of the arguments of an event. Source: tracelog-pipeline `tracer_interface`, with
tracelog-types `to_arg`. -/
def Event.args (e : Event) : List Json := e.arguments.map Argument.kept

/-- The events of a payment service. -/
inductive PaymentEvent where
  | charged (account : String) (cents : UInt64)
  | refunded (account : String)
  | heartbeat
  | measured (value : Option Binary64) (tags : List ((UInt8 × UInt8) × UInt8))
      (note : Option String)

namespace PaymentEvent

/-- The name of the interface. -/
def interface : String := "PaymentEvents"

/-- The tags of a measurement, under pairs of numbers. -/
def tagArgument (tags : List ((UInt8 × UInt8) × UInt8)) : Argument :=
  .map (tags.map fun ((a, b), value) =>
    (.sequence [.integer a.toNat, .integer b.toNat], .integer value.toNat))

/-- An event of the interface. -/
def toEvent : PaymentEvent → Event
  | charged account cents => ⟨"charged", [.text account, .integer cents.toNat]⟩
  | refunded account => ⟨"refunded", [.text account]⟩
  | heartbeat => ⟨"heartbeat", []⟩
  | measured value tags note =>
    ⟨"measured", [.decimal value, tagArgument tags, note.elim .absent fun s => .present (.text s)]⟩

end PaymentEvent

end TraceJournal
