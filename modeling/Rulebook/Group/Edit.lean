/-
  Making and changing groups.

  An edit has two steps: it reads a group and works out what becomes of it, and it saves the result
  if the group is still the one that was read.  Steps of other edits may come in between.

  * `GroupEdit.apply`: what becomes of a group;
  * `GroupStore.finish`: the second step;
  * `GroupStore.edit`: both steps at once;
  * `Group.merge`: a group with changes over it.
-/
import Rulebook.Group.Draft

namespace Rulebook

/-! ## What edits need to know -/

/-- What groups are checked against: settings and which rules there are. -/
structure GroupRules where
  config : Config
  known : String → Bool

namespace Group

/-- A text, or `null` if there is none. -/
def textOrNull : Option String → Data
  | some s => .text s
  | none => .null

/-- The group that a draft describes. -/
def ofDraft (id : String) (now : Instant) (d : GroupDraft) : Group where
  id := id
  name := textOrNull d.name
  mode := d.mode
  members := some d.members
  description := textOrNull d.description
  metadata := d.metadata
  created := now

/-- A group with changes over it. Members and metadata stay if nothing is given instead of them. -/
def merge (g : Group) (c : GroupChanges) : Except Fault Group :=
  match (c.members.join).or g.members with
  | none => .error (.notIterable "NoneType")
  | some members =>
    .ok { g with
      name := match c.name with | some name => textOrNull name | none => g.name
      mode := c.mode.getD g.mode
      members := some members
      description := match c.description with | some d => textOrNull d | none => g.description
      metadata := (c.metadata.join).getD g.metadata }

end Group

/-! ## Edits -/

/-- A change of one group. -/
inductive GroupEdit where
  | update (changes : Submission GroupChanges)
  | addRule (id : String)
  | removeRule (id : String)

/-- The error about a rule that is not there. -/
def ruleNotFound (id : String) : EngineError where
  kind := .notFound
  message := Group.ruleMissing id
  details := .of [("rule_id", .text id)]

/-- What an edit makes of a group; `none` if it stays as it is. -/
def GroupEdit.apply (rules : GroupRules) (g : Group) : GroupEdit → Except Failure (Option Group)
  | .update changes =>
    match changes.read GroupChanges.read with
    | .error e => .error (.engine e)
    | .ok c =>
      match g.merge c with
      | .error f => .error (.fault f)
      | .ok merged => (merged.checked rules.config rules.known).map some
  | .addRule id =>
    if !rules.known id then .error (.engine (ruleNotFound id))
    else
      match g.members with
      | none => .error (.fault (.notContainer "NoneType"))
      | some ids =>
        .ok (if ids.contains id then none else some { g with members := some (ids ++ [id]) })
  | .removeRule id =>
    match g.members with
    | none => .error (.fault (.notContainer "NoneType"))
    | some ids =>
      .ok (if ids.contains id then some { g with members := some (ids.filter (· != id)) } else none)

namespace GroupStore

/-- The second step of an edit: it works out what becomes of the group that was read, and saves
    that if the group is still the one that was read. -/
def finish (rules : GroupRules) (read : Group) (e : GroupEdit) : Operation Group :=
  match e.apply rules read with
  | .error f => throw f
  | .ok none => return read
  | .ok (some g) => save g (some read.version)

/-- Edits a group. -/
def edit (rules : GroupRules) (id : String) (e : GroupEdit) : Operation Group := do
  match (← get).require id with
  | .error e => throw (.engine e)
  | .ok g => finish rules g e

/-- Makes a group. -/
def create (rules : GroupRules) (id : String) (now : Instant) (draft : Submission GroupDraft) :
    Operation Group :=
  match draft.read GroupDraft.read with
  | .error e => throw (.engine e)
  | .ok d =>
    match (Group.ofDraft id now d).checked rules.config rules.known with
    | .error f => throw f
    | .ok g => save g none

/-- Removes a group. -/
def delete (id : String) : Operation Unit := do
  let (found, store) := (← get).remove id
  set store
  unless found do throw (.engine (Group.notFound id))

end GroupStore

end Rulebook
