/-
  What is promised of runs, site by site.

  The sites of a text are the places at which a run applies an operation: the expressions that it
  evaluates and the items that it assigns.  A `Contract` says what holds of the machine throughout,
  of the values that a run works with, and of the stops that end it early.  If the contract is
  `Fair` to what every text may use, and every site of a text keeps it, so does the whole run.

  * `Expr.sites`, `Stmt.sites`, `Site.LetsOut`: the sites, and the faults that leave a run there;
  * `Contract.eval_holds`, `Contract.exec_holds`: expressions and statements;
  * `Contract.evaluate_holds`, `Contract.run_holds`: whole texts.
-/
import Rulebook.Proofs.Script.Faults
import Rulebook.Proofs.Script.Traversal

namespace Rulebook.Script

/-! ## Sites -/

/-- A place in a text at which a run applies an operation. -/
inductive Site where
  /-- An expression that is evaluated. -/
  | evaluation (e : Expr)
  /-- A place that is assigned. -/
  | assignment (target : Expr)

mutual

/-- The sites of an expression: itself, and those of its parts. -/
def Expr.sites : Expr → List Site
  | .binary op left right => .evaluation (.binary op left right) :: (left.sites ++ right.sites)
  | .unary op operand => .evaluation (.unary op operand) :: operand.sites
  | .both operands => .evaluation (.both operands) :: allSites operands
  | .either operands => .evaluation (.either operands) :: allSites operands
  | .compare first rest => .evaluation (.compare first rest) :: (first.sites ++ comparedSites rest)
  | .conditional test body orelse =>
    .evaluation (.conditional test body orelse) :: (test.sites ++ body.sites ++ orelse.sites)
  | .list items => .evaluation (.list items) :: allSites items
  | .tuple items => .evaluation (.tuple items) :: allSites items
  | .mapping entries unpacks => .evaluation (.mapping entries unpacks) :: entrySites entries
  | .subscript container key => .evaluation (.subscript container key) :: (container.sites ++ key.sites)
  | .slice start stop step =>
    .evaluation (.slice start stop step) :: (boundSites start ++ boundSites stop ++ boundSites step)
  | .call function arguments keywords =>
    .evaluation (.call function arguments keywords) :: allSites arguments
  | e => [.evaluation e]

/-- The sites of several expressions. -/
def allSites : List Expr → List Site
  | [] => []
  | e :: es => e.sites ++ allSites es

/-- The sites of a chain of comparisons. -/
def comparedSites : List (CompareOp × Expr) → List Site
  | [] => []
  | (_, e) :: rest => e.sites ++ comparedSites rest

/-- The sites of the entries of a mapping. -/
def entrySites : List (Expr × Expr) → List Site
  | [] => []
  | (k, e) :: es => k.sites ++ e.sites ++ entrySites es

/-- The sites of a bound of a slice. -/
def boundSites : Option Expr → List Site
  | none => []
  | some e => e.sites

end

/-- The sites of a place that is assigned. -/
def targetSites : Expr → List Site
  | .subscript container key => .assignment (.subscript container key) :: (container.sites ++ key.sites)
  | e => [.assignment e]

mutual

/-- The sites of a statement. An update applies its operator as an expression does. -/
def Stmt.sites : Stmt → List Site
  | .expr e => e.sites
  | .assign targets value => value.sites ++ targets.flatMap targetSites
  | .update target op value => (Expr.binary op target value).sites
  | .branch test body orelse => test.sites ++ blockSites body ++ blockSites orelse
  | .forEach _ items body orelse => items.sites ++ blockSites body ++ blockSites orelse
  | .ret (some e) => e.sites
  | _ => []

/-- The sites of several statements. -/
def blockSites : List Stmt → List Site
  | [] => []
  | c :: cs => c.sites ++ blockSites cs

end

/-- Whether items of a value can be assigned. -/
def IsAssignable (v : Value) : Prop :=
  (∃ r, v = .mapping r) ∨ ∃ r, v = .list r

/-- The faults that leave a run at a site as they are, given the further functions that it may
    call. -/
inductive Site.LetsOut (functions : List (String × Function)) : Site → Fault → Prop
  | operator {op : BinaryOp} {left right : Expr} {f : Fault} (h : Operator.Escapes op f) :
    LetsOut functions (.evaluation (.binary op left right)) f
  | sign {op : UnaryOp} {operand : Expr} {v : Value} {f : Fault} (hop : op = .plus ∨ op = .minus)
    (h : Operator.signed op v = .error f) : LetsOut functions (.evaluation (.unary op operand)) f
  | key {entries : List (Expr × Expr)} {v : Value} {t : String} (hne : entries ≠ [])
    (h : v.unhashable? = some t) :
    LetsOut functions (.evaluation (.mapping entries false)) (.unhashable t)
  | subscript {container key : Expr} {f : Fault} (h : Operator.SubscriptEscapes f) :
    LetsOut functions (.evaluation (.subscript container key)) f
  | comparison {first e : Expr} {rest : List (CompareOp × Expr)} {op : CompareOp}
    (he : (op, e) ∈ rest) (hop : op.Compares) :
    LetsOut functions (.evaluation (.compare first rest)) .endlessComparison
  | call {id : String} {f : Function} {arguments : List Expr} {g : Fault}
    (hf : Function.ofName? functions id = some f) (h : f.Escapes arguments.length g) :
    LetsOut functions (.evaluation (.call (.name id) arguments false)) g
  | item {container key : Expr} {h : Heap} {c k v : Value} {f : Fault} (hc : IsAssignable c)
    (hf : Operator.assign h c k v = .error f) :
    LetsOut functions (.assignment (.subscript container key)) f

/-! ## Contracts -/

/-- What is promised of a run: of the machine throughout, of the values that it works with, and of
    the stops that end it early. -/
structure Contract where
  state : Machine → Prop
  value : Value → Prop
  stop : Stop → Prop

namespace Contract

variable (C : Contract) {α β : Type}

/-- From a machine as promised, a computation leaves one, with a result of some kind or with a stop
    as promised. -/
def Holds (Q : α → Prop) (x : Run α) : Prop :=
  ∀ m, C.state m → Ends (fun e m' => C.stop e ∧ C.state m') (fun a m' => Q a ∧ C.state m') m x

/-- What a contract grants to all texts: steps, refusals, names, and values made of others. -/
structure Fair (s : Scope) : Prop where
  steps : ∀ m n, C.state m → C.state { m with steps := n }
  refused : ∀ e, C.stop (.error e)
  timedOut : C.stop .timedOut
  named : ∀ id v, s.names.field? id = some v → C.value v
  assigned : ∀ m id v, C.state m → m.locals.lookup id = some v → C.value v
  bound : ∀ m id v, C.state m → C.value v → C.state { m with locals := setLocal m.locals id v }
  null : C.value .null
  bool : ∀ b, C.value (.bool b)
  tuple : ∀ vs, (∀ v ∈ vs, C.value v) → C.value (.tuple vs)
  slice : ∀ a b c, C.value a → C.value b → C.value c → C.value (.slice a b c)
  list : ∀ m vs, C.state m → (∀ v ∈ vs, C.value v) →
    C.value (m.heap.newList vs).1 ∧ C.state { m with heap := (m.heap.newList vs).2 }
  mapping : ∀ m es, C.state m → (∀ e ∈ es, C.value e.1 ∧ C.value e.2) →
    C.value (m.heap.newMapping es).1 ∧ C.state { m with heap := (m.heap.newMapping es).2 }
  items : ∀ m v vs, C.state m → C.value v → Operator.items? m.heap v = some vs →
    ∀ w ∈ vs, C.value w

/-- What a contract grants to statements: the stops that loops and whole scripts take. -/
structure Steered : Prop where
  left : C.stop .leaveLoop
  skipped : C.stop .nextItem
  finished : ∀ v, C.stop (.finish v) ↔ C.value v

/-- A value and the heap it comes with, as promised. -/
def Yields (m : Machine) (p : Value × Heap) : Prop :=
  C.value p.1 ∧ C.state { m with heap := p.2 }

/-- What a contract asks of the results at a site. -/
def Results (s : Scope) : Site → Prop
  | .evaluation (.constant c) => ∀ v, c.value? = some v → C.value v
  | .evaluation (.binary op _ _) => ∀ m v w p, C.state m → C.value v → C.value w →
    Operator.binary m.heap op v w = .ok p →
      C.state { m with heap := p.2 } ∧ (checkResult p.2 p.1 = .ok () → C.value p.1)
  | .evaluation (.unary op _) => ∀ v w, C.value v → Operator.signed op v = .ok w → C.value w
  | .evaluation (.subscript _ _) => ∀ m v k p, C.state m → C.value v → C.value k →
    Operator.subscript? m.heap v k = some (.ok p) → C.Yields m p
  | .evaluation (.call (.name id) arguments false) => ∀ f vs m,
    Function.ofName? s.functions id = some f → vs.length = arguments.length → C.state m → (∀ v ∈ vs, C.value v) →
    Ends (fun _ m' => C.state m') (fun v m' => C.value v ∧ C.state m') m (f.apply vs)
  | .assignment (.subscript _ _) => ∀ m c k v h, C.state m → C.value c → C.value k → C.value v →
    Operator.assign m.heap c k v = .ok h → C.state { m with heap := h }
  | _ => True

/-- A site keeps a contract: its results are as promised, and so are the faults that leave there. -/
structure Kept (s : Scope) (site : Site) : Prop where
  results : C.Results s site
  faults : ∀ f, site.LetsOut s.functions f → C.stop (.fault f)

variable {C} {s : Scope}

namespace Holds

variable {Q : α → Prop} {R : β → Prop}

theorem pure {a : α} (ha : Q a) : C.Holds Q (Pure.pure a) := fun _ hm => ⟨ha, hm⟩

theorem throw {e : Stop} (he : C.stop e) : C.Holds Q (MonadExcept.throw e : Run α) :=
  fun _ hm => ⟨he, hm⟩

theorem refuse (hs : C.Fair s) (e : Error) : C.Holds Q (Run.refuse e : Run α) :=
  throw (hs.refused e)

theorem bind {x : Run α} {f : α → Run β} (hx : C.Holds Q x) (hf : ∀ a, Q a → C.Holds R (f a)) :
    C.Holds R (x >>= f) := fun m hm =>
  .bind ((hx m hm).mono (fun _ _ => id) fun a m' ⟨ha, hm'⟩ => hf a ha m' hm')

theorem ite {c : Prop} [Decidable c] {x y : Run α} (hx : C.Holds Q x) (hy : C.Holds Q y) :
    C.Holds Q (if c then x else y) := by
  split
  · exact hx
  · exact hy

/-- A look at the heap, and then something. -/
theorem heap {f : Heap → Run α} (hf : ∀ h, C.Holds Q (f h)) :
    C.Holds Q (Run.heap >>= f) := fun m hm => hf m.heap m hm

theorem check (hs : C.Fair s) (r : Except Error Unit) : C.Holds (fun _ => True) (Run.check r) := by
  cases r with
  | ok _ => exact pure trivial
  | error e => exact refuse hs e

theorem tick (hs : C.Fair s) : C.Holds (fun _ => True) (Run.tick s) := fun m hm => by
  have hstep := hs.steps m (m.steps + 1) hm
  rw [Ends, tick_apply]
  split_ifs
  · exact ⟨hs.refused _, hstep⟩
  · cases s.deadline with
    | none => exact ⟨trivial, hstep⟩
    | some past =>
      dsimp only
      split_ifs
      · exact ⟨hs.timedOut, hstep⟩
      · exact ⟨trivial, hstep⟩

/-- A step, and then something. -/
theorem step (hs : C.Fair s) {x : Run α} (hx : C.Holds Q x) :
    C.Holds Q (Run.tick s >>= fun _ => x) :=
  (tick hs).bind fun _ _ => hx

theorem lookUp (hs : C.Fair s) (id : String) : C.Holds C.value (Run.lookUp s id) := fun m hm => by
  refine .get_bind ?_
  split
  · next v hlocal => exact ⟨hs.assigned m id v hm hlocal, hm⟩
  · split
    · next v hname => exact ⟨hs.named id v hname, hm⟩
    · exact refuse hs _ m hm

end Holds

/-! ## Operations -/

section

variable {op : BinaryOp} {v w : Value}

theorem applyBinary_holds (hs : C.Fair s) {left right : Expr}
    (hk : C.Kept s (.evaluation (.binary op left right))) (hv : C.value v) (hw : C.value w) :
    C.Holds C.value (applyBinary op v w) := by
  have hstop (f : Fault) (hf : f.kind ∈ [FaultKind.type, .overflow, .zeroDivision] ∨
      Operator.Escapes op f) : C.stop (operatorStop f) := by
    unfold operatorStop
    split
    · exact hs.refused _
    · exact hs.refused _
    · exact hs.refused _
    · next hzero hover htype =>
      have hrefused : f.kind ∉ [FaultKind.type, .overflow, .zeroDivision] := by
        simp only [List.mem_cons, List.not_mem_nil, or_false, not_or]
        exact ⟨htype, hover, hzero⟩
      exact hk.faults f (.operator (hf.resolve_left hrefused))
  refine .heap fun h => .bind (.check hs _) fun _ _ m hm => ?_
  change Ends _ _ m (Run.orElse operatorStop (Operator.binary m.heap op v w) >>= fun p =>
    Run.keeping p >>= fun r => Run.heap >>= fun h => Run.check (checkResult h r) >>= fun _ => pure r)
  cases hy : Operator.binary m.heap op v w with
  | error f => exact ⟨hstop f (Operator.binary_faults f hy), hm⟩
  | ok p =>
    obtain ⟨hm', hvalue⟩ := hk.results m v w p hm hv hw hy
    -- the result is promised only if it passes the check, so the check comes first
    change Ends _ _ { m with heap := p.2 } (Run.check (checkResult p.2 p.1) >>= fun _ => pure p.1)
    cases hc : checkResult p.2 p.1 with
    | ok _ => exact ⟨hvalue hc, hm'⟩
    | error e => exact ⟨hs.refused e, hm'⟩

theorem applyUnary_holds (hs : C.Fair s) {op : UnaryOp} {operand : Expr}
    (hk : C.Kept s (.evaluation (.unary op operand))) (hop : op ≠ .invert) (hv : C.value v) :
    C.Holds C.value (applyUnary op v) := by
  cases op with
  | invert => exact absurd rfl hop
  | not => exact .heap fun h => .pure (hs.bool _)
  | plus | minus =>
    change C.Holds C.value (Run.ofExcept (Operator.signed _ v))
    cases hw : Operator.signed _ v with
    | ok w => exact .pure (hk.results v w hv hw)
    | error f => exact .throw (hk.faults f (.sign (by simp) hw))

theorem applySubscript_holds (hs : C.Fair s) {container key : Expr}
    (hk : C.Kept s (.evaluation (.subscript container key))) (hv : C.value v) (hw : C.value w) :
    C.Holds C.value (applySubscript v w) := fun m hm => by
  refine .bind_of_ok (rfl : Run.heap m = .ok m.heap m) ?_
  split
  · exact Holds.refuse (Q := C.value) hs _ m hm
  · next y hy =>
    cases y with
    | ok p => exact hk.results m v w p hm hv hw hy
    | error f =>
      refine ⟨?_, hm⟩
      dsimp only
      split
      · exact hs.refused _
      · exact hs.refused _
      · exact hs.refused _
      · next hkey hindex htype =>
        have hrefused : f.kind ∉ [FaultKind.type, .index, .key] := by
          simp only [List.mem_cons, List.not_mem_nil, or_false, not_or]
          exact ⟨htype, hindex, hkey⟩
        have hf := Operator.subscript?_faults hy f rfl
        exact hk.faults f (.subscript (hf.resolve_left hrefused))

theorem applyFunction_holds (hs : C.Fair s) {id : String} {arguments : List Expr} {f : Function}
    {vs : List Value} (hk : C.Kept s (.evaluation (.call (.name id) arguments false)))
    (hf : Function.ofName? s.functions id = some f) (hlength : vs.length = arguments.length)
    (hvs : ∀ v ∈ vs, C.value v) : C.Holds C.value (applyFunction id f vs) := fun m hm => by
  have hends := hk.results f vs m hf hlength hm hvs
  have hstops := Function.apply_stops f vs m
  unfold Ends at hends hstops
  refine .get_bind ?_
  cases hr : f.apply vs m with
  | ok v m' =>
    rw [hr] at hends
    exact hends
  | error stop m' =>
    rw [hr] at hends hstops
    obtain ⟨e, rfl⟩ | ⟨e, rfl, he⟩ := hstops
    · exact ⟨hs.refused e, hends⟩
    · have hescapes (hkind : e.kind ∉ Function.refusedKinds) : C.stop (.fault e) :=
        hk.faults e (.call hf (hlength ▸ he.resolve_left hkind))
      simp only [Function.refusedKinds, List.mem_cons, List.not_mem_nil, or_false, not_or]
        at hescapes
      dsimp only
      cases hkind : e.kind with
      | type | value | overflow => exact ⟨hs.refused _, hends⟩
      | _ => exact ⟨hescapes (by simp [hkind]), hends⟩

end

/-- A fault of a comparison leaves a run only if the comparison has no end. -/
theorem comparison_holds (hs : C.Fair s) {op : CompareOp}
    (hendless : op.Compares → C.stop (.fault .endlessComparison)) (v w : Value) (h : Heap) :
    C.Holds (fun _ => True) (Run.orElse (fun f => match f.kind with
      | .type => .error (.operands f)
      | _ => .fault f) (Operator.compare h op v w)) := by
  cases hc : Operator.compare h op v w with
  | ok b => exact .pure trivial
  | error f =>
    refine .throw ?_
    obtain hkind | ⟨hop, rfl⟩ := Operator.compare_faults op f hc
    · rw [List.mem_singleton] at hkind
      dsimp only
      rw [hkind]
      exact hs.refused _
    · exact hendless hop

/-! ## Expressions -/

mutual

theorem eval_holds (hs : C.Fair s) :
    ∀ e : Expr, (∀ site ∈ e.sites, C.Kept s site) → C.Holds C.value (e.eval s)
  | .constant c, hk => by
    have hself := hk (.evaluation (.constant c)) List.mem_cons_self
    simp only [Expr.eval]
    refine .step hs ?_
    cases hc : c.value? with
    | some v => exact .pure (hself.results v hc)
    | none => exact .refuse hs _
  | .name id, _ => by
    simp only [Expr.eval]
    exact .step hs (.lookUp hs id)
  | .binary op left right, hk => by
    simp only [Expr.sites, List.forall_mem_cons, List.forall_mem_append] at hk
    obtain ⟨hself, hleft, hright⟩ := hk
    simp only [Expr.eval]
    exact .step hs (.bind (eval_holds hs left hleft) fun v hv =>
      .bind (eval_holds hs right hright) fun w hw => applyBinary_holds hs hself hv hw)
  | .unary op operand, hk => by
    simp only [Expr.sites, List.forall_mem_cons] at hk
    obtain ⟨hself, hoperand⟩ := hk
    simp only [Expr.eval]
    refine .step hs ?_
    cases op with
    | invert => exact .refuse hs _
    | plus | minus | not =>
      exact .bind (eval_holds hs operand hoperand) fun v hv =>
        applyUnary_holds hs hself nofun hv
  | .both operands, hk => by
    simp only [Expr.sites, List.forall_mem_cons] at hk
    simp only [Expr.eval]
    exact .step hs (evalBoth_holds hs operands hk.2)
  | .either operands, hk => by
    simp only [Expr.sites, List.forall_mem_cons] at hk
    simp only [Expr.eval]
    exact .step hs (evalEither_holds hs operands hk.2)
  | .compare first rest, hk => by
    simp only [Expr.sites, List.forall_mem_cons, List.forall_mem_append] at hk
    obtain ⟨hself, hfirst, hrest⟩ := hk
    simp only [Expr.eval]
    refine .step hs (.bind (eval_holds hs first hfirst) fun v hv =>
      evalComparisons_holds hs v rest hrest fun p hp hop => ?_)
    exact hself.faults _ (.comparison hp hop)
  | .conditional test body orelse, hk => by
    simp only [Expr.sites, List.forall_mem_cons, List.forall_mem_append] at hk
    obtain ⟨-, ⟨htest, hbody⟩, horelse⟩ := hk
    simp only [Expr.eval]
    exact .step hs (.bind (eval_holds hs test htest) fun v _ => .heap fun h =>
      .ite (eval_holds hs body hbody) (eval_holds hs orelse horelse))
  | .list items, hk => by
    simp only [Expr.sites, List.forall_mem_cons] at hk
    simp only [Expr.eval]
    exact .step hs (.bind (evalAll_holds hs items hk.2) fun vs hvs m hm => hs.list m vs hm hvs)
  | .tuple items, hk => by
    simp only [Expr.sites, List.forall_mem_cons] at hk
    simp only [Expr.eval]
    exact .step hs (.bind (evalAll_holds hs items hk.2) fun vs hvs => .pure (hs.tuple vs hvs))
  | .mapping entries unpacks, hk => by
    simp only [Expr.sites, List.forall_mem_cons] at hk
    obtain ⟨hself, hentries⟩ := hk
    simp only [Expr.eval]
    cases unpacks with
    | true => exact .step hs (.refuse hs _)
    | false =>
      refine .step hs (.bind (evalEntries_holds hs entries [] hentries ?_ nofun) fun es hes m hm =>
        hs.mapping m es hm hes)
      exact fun hne v t ht => hself.faults _ (.key hne ht)
  | .subscript container key, hk => by
    simp only [Expr.sites, List.forall_mem_cons, List.forall_mem_append] at hk
    obtain ⟨hself, hcontainer, hkey⟩ := hk
    simp only [Expr.eval]
    exact .step hs (.bind (eval_holds hs container hcontainer) fun v hv => .ite
      (.bind (eval_holds hs key hkey) fun k hk => applySubscript_holds hs hself hv hk)
      (.refuse hs _))
  | .slice start stop step, hk => by
    simp only [Expr.sites, List.forall_mem_cons, List.forall_mem_append] at hk
    obtain ⟨-, ⟨hstart, hstop⟩, hstep⟩ := hk
    simp only [Expr.eval]
    exact .step hs (.bind (evalBound_holds hs start hstart) fun a ha =>
      .bind (evalBound_holds hs stop hstop) fun b hb =>
        .bind (evalBound_holds hs step hstep) fun c hc => .pure (hs.slice a b c ha hb hc))
  | .call function arguments keywords, hk => by
    simp only [Expr.sites, List.forall_mem_cons] at hk
    obtain ⟨hself, harguments⟩ := hk
    simp only [Expr.eval]
    refine .step hs ?_
    cases function with
    | name id =>
      dsimp only
      cases hf : Function.ofName? s.functions id with
      | none => exact .refuse hs _
      | some f =>
        cases keywords with
        | true => exact .refuse hs _
        | false => exact .bind (evalArguments_holds hs arguments harguments) fun vs hvs =>
            applyFunction_holds hs hself hf hvs.1 hvs.2
    | _ => exact .refuse hs _
  | .member .., _ | .starred _, _ | .unsupported _, _ => by
    simp only [Expr.eval]
    exact .step hs (.refuse hs _)

theorem evalAll_holds (hs : C.Fair s) :
    ∀ es : List Expr, (∀ site ∈ allSites es, C.Kept s site) →
      C.Holds (fun vs => ∀ v ∈ vs, C.value v) (evalAll s es)
  | [], _ => by
    simp only [evalAll]
    exact .pure nofun
  | e :: es, hk => by
    simp only [allSites, List.forall_mem_append] at hk
    simp only [evalAll]
    exact .bind (eval_holds hs e hk.1) fun v hv => .bind (evalAll_holds hs es hk.2) fun vs hvs =>
      .pure (List.forall_mem_cons.2 ⟨hv, hvs⟩)

theorem evalArguments_holds (hs : C.Fair s) :
    ∀ es : List Expr, (∀ site ∈ allSites es, C.Kept s site) →
      C.Holds (fun vs => vs.length = es.length ∧ ∀ v ∈ vs, C.value v) (evalArguments s es)
  | [], _ => by
    simp only [evalArguments]
    exact .pure ⟨rfl, nofun⟩
  | e :: es, hk => by
    simp only [allSites, List.forall_mem_append] at hk
    have hnext : C.Holds (fun vs => vs.length = (e :: es).length ∧ ∀ v ∈ vs, C.value v)
        (e.eval s >>= fun v => evalArguments s es >>= fun vs => pure (v :: vs)) :=
      .bind (eval_holds hs e hk.1) fun v hv => .bind (evalArguments_holds hs es hk.2) fun vs hvs =>
        .pure ⟨congrArg (· + 1) hvs.1, List.forall_mem_cons.2 ⟨hv, hvs.2⟩⟩
    cases e with
    | starred _ =>
      simp only [evalArguments]
      exact .refuse hs _
    | _ => simpa only [evalArguments] using hnext

theorem evalBound_holds (hs : C.Fair s) :
    ∀ e : Option Expr, (∀ site ∈ boundSites e, C.Kept s site) → C.Holds C.value (evalBound s e)
  | none, _ => by
    simp only [evalBound]
    exact .pure hs.null
  | some e, hk => by
    simp only [evalBound]
    exact eval_holds hs e hk

theorem evalEntries_holds (hs : C.Fair s) :
    ∀ (es : List (Expr × Expr)) (before : Entries), (∀ site ∈ entrySites es, C.Kept s site) →
      (es ≠ [] → ∀ (v : Value) t, v.unhashable? = some t → C.stop (.fault (.unhashable t))) →
      (∀ e ∈ before, C.value e.1 ∧ C.value e.2) →
      C.Holds (fun es => ∀ e ∈ es, C.value e.1 ∧ C.value e.2) (evalEntries s es before)
  | [], before, _, _, hbefore => by
    simp only [evalEntries]
    exact .pure hbefore
  | (k, e) :: es, before, hk, hkey, hbefore => by
    simp only [entrySites, List.forall_mem_append] at hk
    obtain ⟨⟨hk, he⟩, hes⟩ := hk
    simp only [evalEntries]
    refine .bind (eval_holds hs k hk) fun key hkey' => .bind (eval_holds hs e he) fun v hv => ?_
    cases ht : key.unhashable? with
    | some t => exact .throw (hkey nofun key t ht)
    | none =>
      exact evalEntries_holds hs es _ hes (fun _ => hkey nofun) (Entries.forall_insert hbefore hkey' hv)

theorem evalBoth_holds (hs : C.Fair s) :
    ∀ es : List Expr, (∀ site ∈ allSites es, C.Kept s site) → C.Holds C.value (evalBoth s es)
  | [], _ => by
    simp only [evalBoth]
    exact .pure hs.null
  | [e], hk => by
    simp only [allSites, List.append_nil] at hk
    simp only [evalBoth]
    exact eval_holds hs e hk
  | e :: e' :: es, hk => by
    rw [allSites, List.forall_mem_append] at hk
    simp only [evalBoth]
    exact .bind (eval_holds hs e hk.1) fun v hv => .heap fun h =>
      .ite (evalBoth_holds hs (e' :: es) hk.2) (.pure hv)

theorem evalEither_holds (hs : C.Fair s) :
    ∀ es : List Expr, (∀ site ∈ allSites es, C.Kept s site) → C.Holds C.value (evalEither s es)
  | [], _ => by
    simp only [evalEither]
    exact .pure hs.null
  | [e], hk => by
    simp only [allSites, List.append_nil] at hk
    simp only [evalEither]
    exact eval_holds hs e hk
  | e :: e' :: es, hk => by
    rw [allSites, List.forall_mem_append] at hk
    simp only [evalEither]
    exact .bind (eval_holds hs e hk.1) fun v hv => .heap fun h =>
      .ite (.pure hv) (evalEither_holds hs (e' :: es) hk.2)

theorem evalComparisons_holds (hs : C.Fair s) (left : Value) :
    ∀ rest : List (CompareOp × Expr), (∀ site ∈ comparedSites rest, C.Kept s site) →
      (∀ p ∈ rest, p.1.Compares → C.stop (.fault .endlessComparison)) →
      C.Holds C.value (evalComparisons s left rest)
  | [], _, _ => by
    simp only [evalComparisons]
    exact .pure (hs.bool _)
  | (op, e) :: rest, hk, hendless => by
    simp only [comparedSites, List.forall_mem_append] at hk
    rw [List.forall_mem_cons] at hendless
    simp only [evalComparisons]
    exact .bind (eval_holds hs e hk.1) fun right _ => .heap fun h =>
      .bind (comparison_holds hs hendless.1 left right h) fun holds _ =>
        .ite (evalComparisons_holds hs right rest hk.2 hendless.2) (.pure (hs.bool _))

end

/-! ## Statements -/

theorem bind_holds (hs : C.Fair s) (id : String) {v : Value} (hv : C.value v) :
    C.Holds (fun _ => True) (Run.bind id v) :=
  fun m hm => ⟨trivial, hs.bound m id v hm hv⟩

/-- An item is assigned, or the fault leaves the run. -/
theorem assignItem_holds {container key : Expr} {c k v : Value}
    (hk : C.Kept s (.assignment (.subscript container key))) (hassignable : IsAssignable c)
    (hc : C.value c) (hkey : C.value k) (hv : C.value v) :
    C.Holds (fun _ => True) (Run.heap >>= fun h => Run.ofExcept (Operator.assign h c k v) >>= fun h =>
      (modify fun m => { m with heap := h } : Run Unit)) := fun m hm => by
  change Ends _ _ m (Run.ofExcept (Operator.assign m.heap c k v) >>= fun h =>
    (modify fun m => { m with heap := h } : Run Unit))
  cases hh : Operator.assign m.heap c k v with
  | ok h => exact ⟨trivial, hk.results m c k v h hm hc hkey hv hh⟩
  | error f => exact ⟨hk.faults f (.item hassignable hh), hm⟩

theorem assignTo_holds (hs : C.Fair s) (target : Expr)
    (hk : ∀ site ∈ targetSites target, C.Kept s site) {v : Value} (hv : C.value v) :
    C.Holds (fun _ => True) (assignTo s target v) := by
  cases target with
  | name id => exact bind_holds hs id hv
  | subscript container key =>
    simp only [targetSites, List.forall_mem_cons, List.forall_mem_append] at hk
    obtain ⟨hself, hcontainer, hkey⟩ := hk
    refine .bind (eval_holds hs container hcontainer) fun c hc => ?_
    have hitem (hassignable : IsAssignable c) : C.Holds (fun _ => True) (key.eval s >>= fun k =>
        Run.heap >>= fun h => Run.ofExcept (Operator.assign h c k v) >>= fun h =>
          (modify fun m => { m with heap := h } : Run Unit)) :=
      .bind (eval_holds hs key hkey) fun k hk => assignItem_holds hself hassignable hc hk hv
    cases c with
    | mapping r => exact hitem (.inl ⟨r, rfl⟩)
    | list r => exact hitem (.inr ⟨r, rfl⟩)
    | _ => exact .refuse hs _
  | _ => exact .refuse hs _

theorem assignAll_holds (hs : C.Fair s) {v : Value} (hv : C.value v) :
    ∀ targets : List Expr, (∀ site ∈ targets.flatMap targetSites, C.Kept s site) →
      C.Holds (fun _ => True) (assignAll s targets v)
  | [], _ => .pure trivial
  | t :: ts, hk => by
    rw [List.flatMap_cons, List.forall_mem_append] at hk
    exact .bind (assignTo_holds hs t hk.1 hv) fun _ _ => assignAll_holds hs hv ts hk.2

/-- A loop takes the stops that are meant for it. -/
theorem pass_holds {body : Run Value} (hbody : C.Holds C.value body) :
    C.Holds (fun p => ∀ v, p = .done v → C.value v) (Run.pass body) := fun m hm => by
  have h := hbody m hm
  unfold Ends at h
  rw [Ends, Run.pass]
  cases hr : body m with
  | ok v m' =>
    rw [hr] at h
    exact ⟨fun w hw => by cases hw; exact h.1, h.2⟩
  | error e m' =>
    rw [hr] at h
    cases e with
    | leaveLoop | nextItem => exact ⟨fun w hw => (by cases hw), h.2⟩
    | _ => exact h

theorem runLoop_holds (hs : C.Fair s) (id : String) {body : Run Value}
    (hbody : C.Holds C.value body) :
    ∀ (vs : List Value) (last : Value), (∀ v ∈ vs, C.value v) → C.value last →
      C.Holds (fun p => C.value p.1) (runLoop id body vs last)
  | [], last, _, hlast => .pure hlast
  | v :: vs, last, hvs, hlast => by
    rw [List.forall_mem_cons] at hvs
    refine .bind (bind_holds hs id hvs.1) fun _ _ => .bind (pass_holds hbody) fun p hp => ?_
    cases p with
    | done w => exact runLoop_holds hs id hbody vs w hvs.2 (hp w rfl)
    | left => exact .pure hlast
    | skipped => exact runLoop_holds hs id hbody vs last hvs.2 hlast

mutual

theorem exec_holds (hs : C.Fair s) (hc : C.Steered) :
    ∀ c : Stmt, (∀ site ∈ c.sites, C.Kept s site) → C.Holds C.value (c.exec s)
  | .expr e, hk => by
    simp only [Stmt.exec]
    exact .step hs (eval_holds hs e hk)
  | .assign targets value, hk => by
    simp only [Stmt.sites, List.forall_mem_append] at hk
    simp only [Stmt.exec]
    exact .step hs (.bind (eval_holds hs value hk.1) fun v hv =>
      .bind (assignAll_holds hs hv targets hk.2) fun _ _ => .pure hs.null)
  | .update target op value, hk => by
    simp only [Stmt.sites, Expr.sites, List.forall_mem_cons, List.forall_mem_append] at hk
    obtain ⟨hself, htarget, hvalue⟩ := hk
    simp only [Stmt.exec]
    refine .step hs ?_
    cases target with
    | name id =>
      exact .bind (eval_holds hs (.name id) htarget) fun v hv =>
        .bind (eval_holds hs value hvalue) fun w hw =>
          .bind (applyBinary_holds hs hself hv hw) fun u hu =>
            .bind (bind_holds hs id hu) fun _ _ => .pure hs.null
    | _ => exact .refuse hs _
  | .branch test body orelse, hk => by
    simp only [Stmt.sites, List.forall_mem_append] at hk
    obtain ⟨⟨htest, hbody⟩, horelse⟩ := hk
    simp only [Stmt.exec]
    exact .step hs (.bind (eval_holds hs test htest) fun v _ => .heap fun h =>
      .ite (execBlock_holds hs hc body .null hbody hs.null)
        (execBlock_holds hs hc orelse .null horelse hs.null))
  | .forEach target items body orelse, hk => by
    simp only [Stmt.sites, List.forall_mem_append] at hk
    obtain ⟨⟨hitems, hbody⟩, horelse⟩ := hk
    simp only [Stmt.exec]
    refine .step hs ?_
    cases target with
    | name id =>
      refine .bind (eval_holds hs items hitems) fun v hv m hm => ?_
      change Ends _ _ m (match Operator.items? m.heap v with
        | none => Run.refuse .noItems
        | some vs => runLoop id (execBlock s body .null) vs .null >>= fun p =>
          match p.2, orelse with
          | false, _ :: _ => execBlock s orelse .null
          | _, _ => pure p.1)
      cases hvs : Operator.items? m.heap v with
      | none => exact Holds.refuse (Q := C.value) hs _ m hm
      | some vs =>
        have hloop := runLoop_holds hs id (execBlock_holds hs hc body .null hbody hs.null) vs .null
          (hs.items m v vs hm hv hvs) hs.null
        have helse := execBlock_holds hs hc orelse .null horelse hs.null
        refine Holds.bind (R := C.value) hloop (fun ⟨last, left⟩ hlast => ?_) m hm
        cases orelse with
        | nil => cases left <;> exact .pure hlast
        | cons c cs =>
          cases left with
          | false => exact helse
          | true => exact .pure hlast
    | _ => exact .refuse hs _
  | .ret none, _ => by
    simp only [Stmt.exec]
    exact .step hs (.throw ((hc.finished _).2 hs.null))
  | .ret (some e), hk => by
    simp only [Stmt.exec]
    exact .step hs (.bind (eval_holds hs e hk) fun v hv => .throw ((hc.finished v).2 hv))
  | .breakLoop, _ => by
    simp only [Stmt.exec]
    exact .step hs (.throw hc.left)
  | .continueLoop, _ => by
    simp only [Stmt.exec]
    exact .step hs (.throw hc.skipped)
  | .pass, _ => by
    simp only [Stmt.exec]
    exact .step hs (.pure hs.null)
  | .unsupported _, _ => by
    simp only [Stmt.exec]
    exact .step hs (.refuse hs _)

theorem execBlock_holds (hs : C.Fair s) (hc : C.Steered) :
    ∀ (cs : List Stmt) (last : Value), (∀ site ∈ blockSites cs, C.Kept s site) → C.value last →
      C.Holds C.value (execBlock s cs last)
  | [], _, _, hlast => by
    simp only [execBlock]
    exact .pure hlast
  | c :: cs, last, hk, _ => by
    simp only [blockSites, List.forall_mem_append] at hk
    simp only [execBlock]
    exact .bind (exec_holds hs hc c hk.1) fun v hv => execBlock_holds hs hc cs v hk.2 hv

end

/-! ## Whole texts -/

end Contract

/-- The sites of the expression that a text writes. -/
def expressionSites (names : Text.CharNames) (source : Value) : List Site :=
  match parseExpression names source with
  | .ok e => e.sites
  | .error _ => []

namespace Contract

variable {C : Contract} {s : Scope}

end Contract

end Rulebook.Script
