/-
  Templates: data whose texts may hold placeholders.

  `Template.resolve` puts data on the heap with every placeholder replaced by what its path leads
  to.  A path starts at an extra name, else at a root of the context, else at a field of the entity.
  A text that is one placeholder becomes the value itself, shared with its other holders; inside a
  longer text the value is written out.  A placeholder whose path leads nowhere stays as it is.
-/
import Rulebook.Context
import Rulebook.Json.Writer
import Rulebook.Path
import Rulebook.Template.Placeholder

namespace Rulebook.Template

/-- Where paths start: extra names before those of the context. -/
structure Sources where
  context : Context
  extra : Entries := []

/-- The value that a path leads to, if it leads anywhere. -/
def Sources.lookUp (s : Sources) (h : Heap) : List String → Except Fault (Option Value)
  | [] => .ok none
  | head :: rest =>
    match s.extra.field? head with
    | some v => h.follow v rest
    | none =>
      match s.context.roots.lookup head with
      | some v => h.follow v rest
      | none => h.follow s.context.entity (head :: rest)

/-- A value inside a longer text. -/
def render (h : Heap) (v : Value) : Except Fault String :=
  match v with
  | .null => .ok ""
  | .instant t => .ok t.iso
  | .list _ => Json.write Json.inText (h.plain v)
  | .mapping _ => Json.write Json.inText (h.plain v)
  | _ => h.asText v

/-- A piece of a text once its placeholder is looked up. -/
inductive Part where
  | literal (span : List Char)
  | value (v : Value)

/-- Looks up the placeholder of a piece. -/
def Sources.part (s : Sources) (h : Heap) : Piece → Except Fault Part
  | .literal span => .ok (.literal span)
  | .placeholder span path =>
    (s.lookUp h path).map fun
      | some v => .value v
      | none => .literal span

/-- The text of a part. -/
def Part.text (h : Heap) : Part → Except Fault String
  | .literal span => .ok (String.ofList span)
  | .value v => render h v

/-- The value of a text whose placeholders are looked up. -/
def ofParts (h : Heap) : List Part → Except Fault Value
  | [.value v] => .ok v
  | parts => do return .text (String.join (← parts.mapM (Part.text h)))

/-- The value of a text. -/
def resolveText (s : Sources) (h : Heap) (text : String) : Except Fault Value := do
  ofParts h (← (Piece.scan text.toList).mapM (s.part h))

mutual

/-- The value of data, its lists and mappings as new objects. -/
def resolve (s : Sources) (h : Heap) : Data → Except Fault (Value × Heap)
  | .text t => do return (← resolveText s h t, h)
  | .list items => do
    let (vs, h) ← resolveAll s h items
    return h.newList vs
  | .tuple items => do
    let (vs, h) ← resolveAll s h items
    return (.tuple vs, h)
  | .mapping entries => do
    let (es, h) ← resolveEntries s h entries
    return h.newMapping es
  | d => .ok (h.load d)

/-- The values of several data, in order. -/
def resolveAll (s : Sources) (h : Heap) : List Data → Except Fault (List Value × Heap)
  | [] => .ok ([], h)
  | d :: ds => do
    let (v, h) ← resolve s h d
    let (vs, h) ← resolveAll s h ds
    return (v :: vs, h)

/-- The entries of a mapping; keys are no templates. -/
def resolveEntries (s : Sources) (h : Heap) :
    List (Data × Data) → Except Fault (Entries × Heap)
  | [] => .ok ([], h)
  | (k, d) :: es => do
    let (k, h) := h.load k
    let (v, h) ← resolve s h d
    let (es, h) ← resolveEntries s h es
    return ((k, v) :: es, h)

end

end Rulebook.Template
