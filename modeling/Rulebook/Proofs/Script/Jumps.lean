/-
  Jumps reach the loop around them and no other.

  A jump that stands in the body of a loop is taken by that loop.  One that stands in its else
  clause is not: there the loop is over, and the jump is meant for the loop around it.  A jump that
  stands in the body of no loop ends the script with a refusal.

  * `ComesTo`: statements come to a jump that is not in the body of one of their loops;
  * `execBlock_eq_jump_iff`: statements end with a jump exactly if they come to one;
  * `Course.Tells.eq_jump_iff`: a loop ends with a jump exactly if its else clause comes to one;
  * `run_of_comesTo`: a script that comes to a jump is refused;
  * `loop_laws`: all of this, and the turns that a loop takes.
-/
import Rulebook.Proofs.Script.Loops

namespace Rulebook.Script

/-! ## Where jumps stand -/

/-- Whether the test of a branch is true. -/
def branchTest (s : Scope) (test : Expr) : Run Bool := do
  Run.tick s
  let v ← test.eval s
  return (← Run.heap).truth v

/-- Statements that are run come to a jump that is not in the body of one of their loops; the second
    machine is the one before the jump.  Of a loop only the else clause is looked into. -/
inductive ComesTo (s : Scope) (j : Jump) : List Stmt → Machine → Machine → Prop where
  | here {cs : List Stmt} {m : Machine} : ComesTo s j (j.statement :: cs) m m
  | branch {test : Expr} {body orelse cs : List Stmt} {b : Bool} {m m₁ m₀ : Machine}
    (htest : branchTest s test m = .ok b m₁)
    (h : ComesTo s j (if b then body else orelse) m₁ m₀) :
    ComesTo s j (.branch test body orelse :: cs) m m₀
  | otherwise {target container : Expr} {body orelse cs : List Stmt} {name : String}
    {items : List Value} {c : Course} {m m₁ m₂ m₀ : Machine}
    (hbegins : Begins s target container m name items m₁)
    (hcourse : c.Tells s name body orelse items m₁
      ((Stmt.forEach target container body orelse).exec s m))
    (helse : c.otherwise = some m₂) (h : ComesTo s j orelse m₂ m₀) :
    ComesTo s j (.forEach target container body orelse :: cs) m m₀
  | next {c : Stmt} {cs : List Stmt} {v : Value} {m m₁ m₀ : Machine}
    (hc : c.exec s m = .ok v m₁) (h : ComesTo s j cs m₁ m₀) : ComesTo s j (c :: cs) m m₀

section

variable {s : Scope} {j : Jump} {m m' m₀ : Machine}

theorem branchTest_jumpless (s : Scope) (test : Expr) :
    jumpless.Holds (fun _ => True) (branchTest s test) :=
  .step (jumpless_fair s) (.bind (eval_jumpless s test) fun _ _ => .heap fun _ => .pure trivial)

theorem exec_branch (test : Expr) (body orelse : List Stmt) :
    (Stmt.branch test body orelse).exec s m =
      match branchTest s test m with
      | .ok b m₁ => execBlock s (if b then body else orelse) .null m₁
      | .error stop m' => .error stop m' := by
  rw [Stmt.exec, branchTest, bind_apply, bind_apply]
  cases Run.tick s m with
  | error stop m' => rfl
  | ok _ m₁ =>
    dsimp only
    rw [bind_apply, bind_apply]
    cases test.eval s m₁ with
    | error stop m' => rfl
    | ok v m₂ =>
      dsimp only
      rw [bind_of_ok (heap_apply m₂), bind_of_ok (heap_apply m₂)]
      change _ = execBlock s (if m₂.heap.truth v then body else orelse) .null m₂
      split <;> rfl

theorem Jump.exec_statement (j : Jump) (s : Scope) (m : Machine) :
    j.statement.exec s m =
      match Run.tick s m with
      | .ok _ m' => .error j.stop m'
      | .error stop m' => .error stop m' := by
  have hexec : j.statement.exec s = Run.tick s >>= fun _ => throw j.stop := by
    cases j <;> simp only [statement, stop, Stmt.exec]
  rw [hexec, bind_apply]
  cases Run.tick s m <;> rfl

theorem Jump.exec_statement_eq_iff {k : Jump} :
    k.statement.exec s m = .error j.stop m' ↔ k = j ∧ Run.tick s m = .ok () m' := by
  rw [exec_statement]
  cases htick : Run.tick s m with
  | ok _ m₁ => cases k <;> cases j <;> simp
  | error stop m₁ =>
    have hstop := (Contract.Holds.tick (jumpless_fair s)).ne_jump htick j
    simp [hstop]

/-- What follows a jump is not run. -/
theorem execBlock_of_jump {c : Stmt} {cs : List Stmt} (last : Value)
    (h : c.exec s m = j.statement.exec s m₀) :
    execBlock s (c :: cs) last m = j.statement.exec s m₀ := by
  rw [execBlock, bind_apply, h, Jump.exec_statement]
  cases Run.tick s m₀ <;> rfl

end

/-! ## Statements that end with a jump -/

/-- A statement is no jump, and there are no statements in it. -/
def Stmt.IsPlain : Stmt → Prop
  | .branch .. => False
  | .forEach .. => False
  | .breakLoop => False
  | .continueLoop => False
  | _ => True

section

variable {s : Scope} {j : Jump} {m m' m₀ m₁ : Machine}

theorem exec_jumpless {c : Stmt} (hc : c.IsPlain) :
    jumpless.Holds (fun _ => True) (c.exec s) := by
  have hs := jumpless_fair s
  have hk (site : Site) := jumpless_kept s site
  cases c with
  | expr e =>
    simp only [Stmt.exec]
    exact .step hs (eval_jumpless s e)
  | assign targets value =>
    simp only [Stmt.exec]
    exact .step hs (.bind (eval_jumpless s value) fun v hv =>
      .bind (Contract.assignAll_holds hs hv targets fun site _ => hk site) fun _ _ => .pure trivial)
  | update target op value =>
    simp only [Stmt.exec]
    refine .step hs ?_
    cases target with
    | name id =>
      exact .bind (eval_jumpless s (.name id)) fun v hv => .bind (eval_jumpless s value) fun w hw =>
        .bind (Contract.applyBinary_holds hs (hk (.evaluation (.binary op (.name id) value))) hv hw)
          fun u hu => .bind (Contract.bind_holds hs id hu) fun _ _ => .pure trivial
    | _ => exact .refuse hs _
  | ret value =>
    cases value with
    | none =>
      simp only [Stmt.exec]
      exact .step hs (.throw fun j => by cases j <;> simp)
    | some e =>
      simp only [Stmt.exec]
      exact .step hs (.bind (eval_jumpless s e) fun v _ => .throw fun j => by cases j <;> simp)
  | pass =>
    simp only [Stmt.exec]
    exact .step hs (.pure trivial)
  | unsupported kind =>
    simp only [Stmt.exec]
    exact .step hs (.refuse hs _)
  | branch | forEach | breakLoop | continueLoop => exact hc.elim

theorem not_plain_of_jump {c : Stmt} (h : c.exec s m = .error j.stop m') : ¬c.IsPlain :=
  fun hc => (exec_jumpless hc).ne_jump h j rfl

/-- Statements that come to a jump end as the jump does. -/
theorem ComesTo.execBlock_eq {cs : List Stmt} (h : ComesTo s j cs m m₀) (last : Value) :
    execBlock s cs last m = j.statement.exec s m₀ := by
  induction h generalizing last with
  | here => exact execBlock_of_jump last rfl
  | branch htest _ ih =>
    refine execBlock_of_jump last ?_
    rw [exec_branch, htest]
    exact ih .null
  | otherwise _ hcourse helse _ ih =>
    refine execBlock_of_jump last ?_
    rw [(hcourse.elseEnds _ helse).2]
    exact ih _
  | next hc _ ih =>
    rw [execBlock, bind_of_ok hc]
    exact ih _

/-- A loop that ends with a jump has run its else clause, and ends so by it. -/
theorem Course.Tells.otherwise_of_jump {name : String} {body orelse : List Stmt}
    {items : List Value} {c : Course}
    (hc : c.Tells s name body orelse items m₁ (.error j.stop m')) :
    ∃ m₂, c.otherwise = some m₂ ∧
      execBlock s orelse (lastOf Turn.value? .null c.turns) m₂ = .error j.stop m' := by
  by_cases hall : ∀ t ∈ c.turns, t.GoesOn
  · obtain ⟨m₂, helse⟩ := Option.isSome_iff_exists.1 (hc.elseRuns.2 hall)
    exact ⟨m₂, helse, (hc.elseEnds m₂ helse).2.symm⟩
  · -- the turn after which the loop does not go on ends it, and with no jump
    push Not at hall
    obtain ⟨t, ht, hoff⟩ := hall
    rcases t.cases_ending with hon | ⟨m₂, hleft⟩ | ⟨stop, m₂, hend, hstop⟩
    · exact absurd hon hoff
    · cases hc.leaves t ht m₂ hleft
    · cases hc.stops t ht stop m₂ hend hstop
      exact absurd rfl (hstop j)

mutual

theorem exists_comesTo_of_exec (s : Scope) (j : Jump) :
    ∀ (c : Stmt) (cs : List Stmt) {m m' : Machine}, c.exec s m = .error j.stop m' →
      ∃ m₀, ComesTo s j (c :: cs) m m₀ ∧ Run.tick s m₀ = .ok () m'
  | .branch test body orelse, cs, m, m', h => by
    rw [exec_branch] at h
    cases htest : branchTest s test m with
    | error stop m₁ =>
      rw [htest] at h
      cases h
      exact absurd rfl ((branchTest_jumpless s test).ne_jump htest j)
    | ok b m₁ =>
      rw [htest] at h
      have htaken : ∃ m₀, ComesTo s j (if b then body else orelse) m₁ m₀ ∧
          Run.tick s m₀ = .ok () m' := by
        cases b with
        | true => exact exists_comesTo_of_execBlock s j body .null h
        | false => exact exists_comesTo_of_execBlock s j orelse .null h
      obtain ⟨m₀, hcomes, htick⟩ := htaken
      exact ⟨m₀, .branch htest hcomes, htick⟩
  | .forEach target container body orelse, cs, m, m', h => by
    by_cases hbegins : ∃ name items m₁, Begins s target container m name items m₁
    · obtain ⟨name, items, m₁, hbegins⟩ := hbegins
      obtain ⟨c, hcourse, -⟩ := exec_of_begins body orelse hbegins
      obtain ⟨m₂, helse, hend⟩ := (h ▸ hcourse).otherwise_of_jump
      obtain ⟨m₀, hcomes, htick⟩ := exists_comesTo_of_execBlock s j orelse _ hend
      exact ⟨m₀, .otherwise hbegins hcourse helse hcomes, htick⟩
    · push Not at hbegins
      obtain ⟨stop, m₁, hend, -, hstop⟩ := exec_of_not_begins body orelse hbegins
      cases hend.symm.trans h
      exact absurd rfl (hstop j)
  | .breakLoop, _, m, _, h => by
    obtain ⟨rfl, htick⟩ := (Jump.exec_statement_eq_iff (k := .leave)).1 h
    exact ⟨m, .here, htick⟩
  | .continueLoop, _, m, _, h => by
    obtain ⟨rfl, htick⟩ := (Jump.exec_statement_eq_iff (k := .next)).1 h
    exact ⟨m, .here, htick⟩
  | .expr _, _, _, _, h => absurd trivial (not_plain_of_jump h)
  | .assign .., _, _, _, h => absurd trivial (not_plain_of_jump h)
  | .update .., _, _, _, h => absurd trivial (not_plain_of_jump h)
  | .ret _, _, _, _, h => absurd trivial (not_plain_of_jump h)
  | .pass, _, _, _, h => absurd trivial (not_plain_of_jump h)
  | .unsupported _, _, _, _, h => absurd trivial (not_plain_of_jump h)

theorem exists_comesTo_of_execBlock (s : Scope) (j : Jump) :
    ∀ (cs : List Stmt) (last : Value) {m m' : Machine}, execBlock s cs last m = .error j.stop m' →
      ∃ m₀, ComesTo s j cs m m₀ ∧ Run.tick s m₀ = .ok () m'
  | [], last, m, m', h => by
    rw [execBlock] at h
    cases h
  | c :: cs, last, m, m', h => by
    rw [execBlock, bind_apply] at h
    cases hc : c.exec s m with
    | error stop m₁ =>
      rw [hc] at h
      cases h
      exact exists_comesTo_of_exec s j c cs hc
    | ok v m₁ =>
      rw [hc] at h
      obtain ⟨m₀, hcomes, htick⟩ := exists_comesTo_of_execBlock s j cs v h
      exact ⟨m₀, .next hc hcomes, htick⟩

end

/-- Statements end with a jump exactly if they come to one, and there is a step left for it. -/
theorem execBlock_eq_jump_iff {cs : List Stmt} {last : Value} :
    execBlock s cs last m = .error j.stop m' ↔
      ∃ m₀, ComesTo s j cs m m₀ ∧ Run.tick s m₀ = .ok () m' := by
  constructor
  · exact exists_comesTo_of_execBlock s j cs last
  · rintro ⟨m₀, hcomes, htick⟩
    rw [hcomes.execBlock_eq last]
    exact Jump.exec_statement_eq_iff.2 ⟨rfl, htick⟩

/-- A loop that has begun ends with a jump exactly if its else clause comes to one. -/
theorem Course.Tells.eq_jump_iff {name : String} {body orelse : List Stmt} {items : List Value}
    {c : Course} {ending : Ending} (hc : c.Tells s name body orelse items m₁ ending) :
    ending = .error j.stop m' ↔ ∃ m₂, c.otherwise = some m₂ ∧
      ∃ m₀, ComesTo s j orelse m₂ m₀ ∧ Run.tick s m₀ = .ok () m' := by
  constructor
  · rintro rfl
    obtain ⟨m₂, helse, hend⟩ := hc.otherwise_of_jump
    exact ⟨m₂, helse, execBlock_eq_jump_iff.1 hend⟩
  · rintro ⟨m₂, helse, hjump⟩
    rw [(hc.elseEnds m₂ helse).2]
    exact execBlock_eq_jump_iff.2 hjump

/-! ## Whole scripts -/

theorem stop_of_tick {stop : Stop} (h : Run.tick s m = .error stop m') :
    (∃ e, stop = .error e) ∨ stop = .timedOut := by
  have hs : (allowing fun stop => (∃ e, stop = .error e) ∨ stop = .timedOut).Fair s :=
    allowing_fair (fun e => .inl ⟨e, rfl⟩) (.inr rfl) s
  have hends := Contract.Holds.tick hs m trivial
  rw [Ends, h] at hends
  exact hends.1

/-- A script that comes to a jump is refused for it, unless there is no step left for the jump. -/
theorem run_of_comesTo {source : Value} {ss : List Stmt}
    (hread : parseScript s.charNames source = .ok ss) (h : ComesTo s j ss m m₀) :
    ∃ stop m', run s source m = .error stop m' ∧ ((∃ e, stop = .error e) ∨ stop = .timedOut) ∧
      ∀ m₁, Run.tick s m₀ = .ok () m₁ → stop = .error .strayLoopControl ∧ m' = m₁ := by
  rw [run, hread]
  dsimp only
  rw [runStatements, h.execBlock_eq .null, Jump.exec_statement]
  cases htick : Run.tick s m₀ with
  | ok _ m₁ =>
    refine ⟨.error .strayLoopControl, m₁, by cases j <;> rfl, .inl ⟨_, rfl⟩, fun m₂ h₂ => ?_⟩
    cases h₂
    exact ⟨rfl, rfl⟩
  | error stop m₁ =>
    have hstop := stop_of_tick htick
    refine ⟨stop, m₁, ?_, hstop, by simp⟩
    rcases hstop with ⟨e, rfl⟩ | rfl <;> rfl

end

/-! ## The laws of loops -/

/-- How loops run, and where jumps go. -/
structure LoopLaws (s : Scope) : Prop where
  /-- A loop that begins takes one course over the items that its container has then, and comes to
      its end by it. -/
  begun {target container : Expr} {name : String} {items : List Value} {m m₁ : Machine}
    (body orelse : List Stmt) (h : Begins s target container m name items m₁) :
    ∃! c : Course, c.Tells s name body orelse items m₁
      ((Stmt.forEach target container body orelse).exec s m)
  /-- A loop that does not begin ends where it stands: no name is bound, no object changes, and no
      loop around it is left or goes on. -/
  unbegun {target container : Expr} {m : Machine} (body orelse : List Stmt)
    (h : ∀ name items m₁, ¬Begins s target container m name items m₁) :
    ∃ stop m', (Stmt.forEach target container body orelse).exec s m = .error stop m' ∧
      Spares m m' ∧ ∀ j : Jump, stop ≠ j.stop
  /-- Statements end with a jump exactly if they come to one that is in the body of none of their
      loops, and there is a step left for it. -/
  jumps (cs : List Stmt) (last : Value) (j : Jump) (m m' : Machine) :
    execBlock s cs last m = .error j.stop m' ↔
      ∃ m₀, ComesTo s j cs m m₀ ∧ Run.tick s m₀ = .ok () m'
  /-- A loop that has begun ends with a jump, which is then meant for the loop around it, exactly if
      its else clause runs and comes to one. -/
  enclosed {name : String} {body orelse : List Stmt} {items : List Value} {m₁ : Machine}
    {ending : Ending} {c : Course} (hc : c.Tells s name body orelse items m₁ ending) (j : Jump)
    (m' : Machine) :
    ending = .error j.stop m' ↔ ∃ m₂, c.otherwise = some m₂ ∧
      ∃ m₀, ComesTo s j orelse m₂ m₀ ∧ Run.tick s m₀ = .ok () m'
  /-- A script that comes to a jump in the body of no loop is refused for it, or for the step that
      is not left. -/
  stray {source : Value} {ss : List Stmt} {j : Jump} {m m₀ : Machine}
    (hread : parseScript s.charNames source = .ok ss) (h : ComesTo s j ss m m₀) :
    ∃ stop m', run s source m = .error stop m' ∧ ((∃ e, stop = .error e) ∨ stop = .timedOut) ∧
      ∀ m₁, Run.tick s m₀ = .ok () m₁ → stop = .error .strayLoopControl ∧ m' = m₁

/-- Loops run over the items that their containers had, and a jump is taken by the loop in whose
    body it stands. -/
theorem loop_laws (s : Scope) : LoopLaws s where
  begun body orelse := exec_of_begins body orelse
  unbegun body orelse := exec_of_not_begins body orelse
  jumps _ _ _ _ _ := execBlock_eq_jump_iff
  enclosed hc _ _ := hc.eq_jump_iff
  stray := run_of_comesTo

-- the second item is the one that the list had when the loop began
example :
    (match run { names := [] }
        (.text "xs = [1, 2]\nn = 0\nfor x in xs:\n    xs[1] = 9\n    n = n + x\nn")
        { heap := {} } with
      | .ok (.int 3) _ => true
      | _ => false) = true := by
  decide +kernel

/-! A loop that its body ends runs no else clause, although it was not left; and a jump that no run
    comes to refuses no script. -/

/-- A scope without names, in which scripts may log. -/
def loggingScope : Scope where
  names := []
  functions := [("log", .log)]

/-- A list of one item. -/
def oneItem : Expr :=
  .list [.constant (.int 1)]

/-- A body that returns the item. -/
def returningBody : List Stmt :=
  [.ret (some (.name "x"))]

/-- An else clause that can be seen to run. -/
def loggingElse : List Stmt :=
  [.expr (.call (.name "log") [.constant (.text "else")] false)]

/-- A loop whose body ends it. -/
def endedLoop : Stmt :=
  .forEach (.name "x") oneItem returningBody loggingElse

/-- A jump behind a test that fails. -/
def idleJump : Stmt :=
  .branch (.constant (.bool false)) [.breakLoop] []

/-- Whether a script is read as that loop. -/
def isEndedLoop (t : String) : Bool :=
  match parseScript Text.noNames (.text t) with
  | .ok [.forEach (.name "x") (.list [.constant (.int 1)]) [.ret (some (.name "x"))]
      [.expr (.call (.name "log") [.constant (.text "else")] false)]] => true
  | _ => false

/-- Whether a script is read as that jump. -/
def isIdleJump (t : String) : Bool :=
  match parseScript Text.noNames (.text t) with
  | .ok [.branch (.constant (.bool false)) [.breakLoop] []] => true
  | _ => false

theorem parse_endedLoop {t : String} (ht : isEndedLoop t) :
    parseScript Text.noNames (.text t) = .ok [endedLoop] := by
  unfold isEndedLoop at ht
  split at ht
  · next hread => exact hread
  · cases ht

theorem parse_idleJump {t : String} (ht : isIdleJump t) :
    parseScript Text.noNames (.text t) = .ok [idleJump] := by
  unfold isIdleJump at ht
  split at ht
  · next hread => exact hread
  · cases ht

/-- That loop begins, and its one turn returns. -/
theorem turns_endedLoop :
    ∃ m₁, Begins loggingScope (.name "x") oneItem { heap := {} } "x" [.int 1] m₁ ∧
      ∀ ts, Turns loggingScope "x" returningBody [.int 1] m₁ ts →
        ∃ t m', ts = [t] ∧ t.ending = .error (.finish (.int 1)) m' := by
  refine ⟨_, ⟨rfl, _, rfl, rfl⟩, fun ts hts => ?_⟩
  obtain ⟨rest, rfl, hrest⟩ := turns_cons_iff.1 hts
  -- the body is run: the loop does not go on after it
  change rest = [] at hrest
  subst hrest
  exact ⟨_, _, rfl, rfl⟩

/-- The else clause does not run, although the loop is not left; and a jump stands in the body of no
    loop, although the script has a value. -/
theorem ended_without_else :
    parseScript Text.noNames (.text "for x in [1]:\n    return x\nelse:\n    log('else')") =
        .ok [endedLoop] ∧
      (∃ m', run loggingScope
          (.text "for x in [1]:\n    return x\nelse:\n    log('else')") { heap := {} } =
            .ok (.int 1) m' ∧ m'.log = []) ∧
      (∃ m₁ c, Begins loggingScope (.name "x") oneItem { heap := {} } "x" [.int 1] m₁ ∧
        Course.Tells loggingScope "x" returningBody loggingElse [.int 1] m₁
          (endedLoop.exec loggingScope { heap := {} }) c ∧
        ¬(c.otherwise.isSome ↔ ∀ t ∈ c.turns, ∀ m, t.ending ≠ .error .leaveLoop m)) ∧
      parseScript Text.noNames (.text "if False:\n    break") = .ok [idleJump] ∧
      ∃ m', run loggingScope (.text "if False:\n    break") { heap := {} } = .ok .null m' := by
  have hloop := parse_endedLoop
    (by decide +kernel : isEndedLoop "for x in [1]:\n    return x\nelse:\n    log('else')")
  have hidle := parse_idleJump (by decide +kernel : isIdleJump "if False:\n    break")
  have hended := run_of_read (s := loggingScope) hloop
  have hidled := run_of_read (s := loggingScope) hidle
  refine ⟨hloop, ⟨_, by rw [hended]; rfl, rfl⟩, ?_, hidle, _, by rw [hidled]; rfl⟩
  obtain ⟨m₁, hbegins, hturns⟩ := turns_endedLoop
  obtain ⟨c, hc, -⟩ := exec_of_begins returningBody loggingElse hbegins
  obtain ⟨t, m', hts, hend⟩ := hturns c.turns hc.turns
  have hkept : ∀ u ∈ c.turns, ∀ m, u.ending ≠ .error .leaveLoop m := by
    intro u hu m hleft
    rw [hts] at hu
    obtain rfl := List.mem_singleton.1 hu
    cases hend.symm.trans hleft
  refine ⟨m₁, c, hbegins, hc, fun hiff => ?_⟩
  have hall := hc.elseRuns.1 (hiff.2 hkept)
  exact Turn.not_goesOn hend (by simp) (hall t (by rw [hts]; exact List.mem_singleton_self t))

end Rulebook.Script
