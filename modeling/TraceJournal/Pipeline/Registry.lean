import TraceJournal.Text.Digits

/-!
# Handler registries

The handlers that records are delivered to, in the order of their registration. A handler is known
by a number of its own, so that two handlers of one kind are told apart; none is registered twice.
A delivery works on the list as it was when it began.

Library tracelog-pipeline, module `registry`; SPEC_FULL §4.3.
-/

namespace TraceJournal

/-- The number by which a handler is known. Source: tracelog-pipeline `same_handler`: handlers are
told apart by where they stand. -/
abbrev HandlerId := Nat

/-- The registered handlers, in the order of their registration. Source: tracelog-pipeline
`HandlerRegistry`. -/
structure Registry where
  handlers : List HandlerId
  nodup : handlers.Nodup

namespace Registry

/-- No handler is registered. Source: tracelog-pipeline `HandlerRegistry.new`. -/
def empty : Registry := ⟨[], List.nodup_nil⟩

/-- Registers a handler; answers whether it was not registered before. Source: tracelog-pipeline
`HandlerRegistry.register`. -/
def register (h : HandlerId) (r : Registry) : Bool × Registry :=
  if known : h ∈ r.handlers then (false, r)
  else
    (true, ⟨r.handlers ++ [h], by
      rw [List.nodup_append]
      refine ⟨r.nodup, by simp, ?_⟩
      rintro a ha b hb rfl
      exact known (List.mem_singleton.1 hb ▸ ha)⟩)

/-- Removes a handler; answers whether it was registered. Source: tracelog-pipeline
`HandlerRegistry.unregister`. -/
def unregister (h : HandlerId) (r : Registry) : Bool × Registry :=
  (decide (h ∈ r.handlers), ⟨r.handlers.erase h, r.nodup.erase h⟩)

/-- The form for diagnostics. Source: tracelog-pipeline, the diagnostics of `HandlerRegistry`. -/
def debug (r : Registry) : String :=
  "HandlerRegistry \x7b handler_count: " ++ String.ofList (Text.decimal r.handlers.length) ++
    " \x7d"

end Registry

end TraceJournal
