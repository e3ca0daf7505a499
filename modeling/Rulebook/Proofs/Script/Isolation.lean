/-
  Scripts are isolated.

  A script runs on a deep copy of its names.  What it would run on in place, and the copy, both
  mirror the objects that are met from the names, gathered on a heap of their own; so the script
  comes to the same in place and on the copy, and what was there before stays as it was.

  * `runScript_inPlace`: the same data or error and the same lines as in place;
  * `runScript_extends`: no object changes;
  * `runScript_isolated`: both, and what values stand for afterwards.
-/
import Rulebook.Proofs.Extension
import Rulebook.Proofs.Mirror.Copies
import Rulebook.Proofs.Mirror.Evaluation

namespace Rulebook.Script

variable (h : Heap) (s : Scope) (source : Value)

/-- The objects that a script copies. -/
def Scope.objects : List Ref :=
  h.reached [] s.names.refs

/-- The scope of a script on its objects alone. -/
def Scope.gathered : Scope :=
  s.rename (h.placeOf (s.objects h))

theorem objects_whole : h.Whole (s.objects h) :=
  h.reached_whole s.names.refs

/-- The scope of a script is the image of the one on its objects alone. -/
theorem gathered_objects :
    (s.gathered h).rename (h.objectAt (s.objects h)) = s := by
  have hself : ∀ r ∈ s.names.refs,
      (h.objectAt (s.objects h) ∘ h.placeOf (s.objects h)) r = r := fun r hr =>
    Heap.Whole.objectAt_placeOf (Heap.mem_reached hr)
  unfold Scope.gathered Scope.rename
  dsimp only
  rw [Entries.rename_rename, Entries.rename_eq_self hself]

/-- The scope of a script on the copy is the image of the one on its objects alone. -/
theorem gathered_copies :
    (s.gathered h).rename (h.cells.size + ·) = s.rename (h.copyOf (s.objects h)) := by
  unfold Scope.gathered Scope.rename
  dsimp only
  rw [Entries.rename_rename, Heap.copyOf_eq]

theorem runScript_eq : runScript h s source =
    runInPlace (h.withCopies (s.objects h)) ((s.gathered h).rename (h.cells.size + ·)) source := by
  rw [gathered_copies]
  rfl

/-- **A script comes to the same on the copy as in place.** -/
theorem runScript_inPlace :
    (runScript h s source).result = (runInPlace h s source).result ∧
      (runScript h s source).log = (runInPlace h s source).log := by
  have w := objects_whole h s
  have hobjects := runInPlace_mirrors w.objectAt_injective (s.gathered h)
    w.gathered_mirrors_objects source
  have hcopies := runInPlace_mirrors (add_right_injective h.cells.size) (s.gathered h)
    w.gathered_mirrors_copies source
  rw [gathered_objects] at hobjects
  rw [runScript_eq]
  exact ⟨hcopies.1.trans hobjects.1.symm, hcopies.2.1.trans hobjects.2.1.symm⟩

/-- **A script changes no object** that was there before. -/
theorem runScript_extends : h.Extends (runScript h s source).heap := by
  have w := objects_whole h s
  have hcopies := runInPlace_mirrors (add_right_injective h.cells.size) (s.gathered h)
    w.gathered_mirrors_copies source
  intro r c hr
  have hlt := Heap.lt_of_read hr
  rw [runScript_eq, hcopies.2.2.aside r, hr]
  rintro t rfl
  exact Nat.not_lt.2 (Nat.le_add_right _ _) hlt

/-- **Scripts are isolated.**  A script leaves every object as it was, and so what every value
    stands for, whether it returns, fails or runs out of steps; and it returns the same data, fails
    with the same error and logs the same lines as in place, on the objects themselves. -/
theorem runScript_isolated :
    (h.Extends (runScript h s source).heap ∧
      ∀ v, h.Closed → v.Within h.cells.size → (runScript h s source).heap.plain v = h.plain v) ∧
    (runScript h s source).result = (runInPlace h s source).result ∧
    (runScript h s source).log = (runInPlace h s source).log := by
  have hextends := runScript_extends h s source
  exact ⟨⟨hextends, fun v hclosed hv => hextends.plain_eq hclosed hv⟩, runScript_inPlace h s source⟩

end Rulebook.Script
