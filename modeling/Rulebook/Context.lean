/-
  What rules run on.

  A `Context` is the entity that rules read and write, and what identifies it and the run.
-/
import Rulebook.Data.Conversion
import Rulebook.Heap

namespace Rulebook

/-- The entity of a run and the values that identify it. -/
structure Context where
  entityId : Value
  entityType : Value
  userId : Value
  correlationId : Value
  timestamp : Value
  entity : Value

namespace Context

/-- The identifiers by the names that fields and templates use. -/
def identifiers (c : Context) : List (String × Value) :=
  [("entityId", c.entityId), ("entityType", c.entityType), ("userId", c.userId),
    ("correlationId", c.correlationId), ("timestamp", c.timestamp)]

/-- The names that a template may start from: the identifiers and the entity as a whole. -/
def roots (c : Context) : List (String × Value) :=
  c.identifiers ++ [("entity", c.entity)]

/-- The names that guards and scripts read besides the fields of the entity. -/
def scriptNames (c : Context) : List (String × Value) :=
  [("entityId", c.entityId), ("entityType", c.entityType), ("userId", c.userId),
    ("timestamp", c.timestamp), ("entity_id", c.entityId), ("entity_type", c.entityType),
    ("user_id", c.userId)]

/-- The entries of the entity. -/
def fields (c : Context) (h : Heap) : Except Fault (Entries × Heap) :=
  match c.entity with
  | .mapping r => .ok (h.entries r, h)
  | v => (h.plain v).toEntries.map fun es => h.loadEntries es

/-- All names that guards and scripts read: the fields of the entity, and over them the
    identifiers. -/
def names (c : Context) (h : Heap) : Except Fault (Entries × Heap) := do
  let (es, h) ← c.fields h
  return (es.merge (c.scriptNames.map fun e => (.text e.1, e.2)), h)

end Context

end Rulebook
