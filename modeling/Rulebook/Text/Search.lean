/-
  Texts within texts.
-/

namespace Rulebook.Text

/-- Whether a text stands somewhere in another. -/
def isWithin (needle text : List Char) : Bool :=
  match text with
  | [] => needle.isEmpty
  | _ :: rest => needle.isPrefixOf text || isWithin needle rest

theorem isWithin_iff (needle text : List Char) : isWithin needle text = true ↔ needle <:+: text := by
  induction text with
  | nil => simp [isWithin]
  | cons c rest ih => simp [isWithin, ih, List.infix_cons_iff]

end Rulebook.Text
