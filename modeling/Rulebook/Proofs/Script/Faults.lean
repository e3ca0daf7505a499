/-
  Which faults of operators and functions are refusals.

  A fault of an operator, a comparison, a subscript or a call is turned into a refusal if it is of a
  kind that is expected there.  What is not expected escapes: the faults of percent formatting with
  a malformed directive or a missing key, of spans that are scaled by a NaN (`Operator.Escapes`), of
  slices with step zero, of missing keys that cannot be listed (`Operator.SubscriptEscapes`), of
  comparisons without end (`CompareOp.Compares`), and what functions from outside let out
  (`Function.Escapes`).

  * `Operator.binary_faults`, `Operator.subscript?_faults`, `Operator.compare_faults`: operators;
  * `Function.pure?_faults`, `Function.apply_stops`: functions.
-/
import Mathlib.Tactic.Tauto
import Rulebook.Proofs.Comparison
import Rulebook.Proofs.Preservation
import Rulebook.Proofs.Sorting
import Rulebook.Script.Evaluate

namespace Rulebook.Script

namespace Operator

variable {α : Type} {h : Heap} {op : BinaryOp} {v w : Value}

/-! ## Operators -/

/-- The faults of an operator that are no refusals. -/
inductive Escapes : BinaryOp → Fault → Prop
  | ratio {op : BinaryOp} (h : op = .mul ∨ op = .div) : Escapes op .nanToRatio
  | format {h : Heap} {s : String} {w : Value} {f : Fault}
      (hf : Data.Percent.format s (h.plain w) = .error f)
      (hkind : f.kind = .value ∨ f.kind = .key) : Escapes .mod f

/-- An operator has a result, a fault that is refused, or one that escapes. -/
def RefusedOrEscapes (op : BinaryOp) (r : Except Fault α) : Prop :=
  FaultsAre (fun f => f.kind ∈ [FaultKind.type, .overflow, .zeroDivision] ∨ Escapes op f) r

theorem faultsIn_span (micros : Int) : FaultsIn [.overflow] (span micros) := by
  unfold span
  exact .ite (.ok _) (.error rfl)

theorem faultsIn_moved (t : Instant) (micros : Int) : FaultsIn [.overflow] (moved t micros) := by
  unfold moved
  exact .ite (.ok _) (.error rfl)

theorem scaled_faults (hop : op = .mul ∨ op = .div) (micros : Int) (x : Float) (inverse : Bool) :
    RefusedOrEscapes op (scaled micros x inverse) := by
  unfold scaled
  split
  · exact .ite (.expected rfl) ((faultsIn_span _).orOthers (by simp))
  · exact .of_error (.inr (.ratio hop))
  · exact .expected rfl

theorem onTimes_faults {r : Except Fault Value} (hr : onTimes op v w = some r) :
    RefusedOrEscapes op r := by
  have hspan (op : BinaryOp) (n : Int) : RefusedOrEscapes op (span n) :=
    (faultsIn_span n).orOthers (by simp)
  have hmoved (op : BinaryOp) (t : Instant) (n : Int) : RefusedOrEscapes op (moved t n) :=
    (faultsIn_moved t n).orOthers (by simp)
  unfold onTimes at hr
  split at hr
  · cases hr; exact hmoved _ _ _
  · cases hr; exact hmoved _ _ _
  · cases hr; exact hspan _ _
  · cases hr; exact hspan _ _
  · cases hr; exact hmoved _ _ _
  · cases hr; exact hspan _ _
  · split at hr <;> cases hr
    · exact hspan _ _
    · exact scaled_faults (.inl rfl) _ _ _
  · split at hr <;> cases hr
    · exact hspan _ _
    · exact scaled_faults (.inl rfl) _ _ _
  · cases hr
    exact ((Number.faultsIn_div _ _).map _).orOthers (by simp)
  · split at hr <;> cases hr
    · exact .ite (.expected rfl) (hspan _ _)
    · exact scaled_faults (.inr rfl) _ _ _
  · cases hr
    exact .ite (.expected rfl) (.ok _)
  · split at hr <;> cases hr
    exact .ite (.expected rfl) (hspan _ _)
  · cases hr
    exact .ite (.expected rfl) (hspan _ _)
  · cases hr

theorem onTimes_add_faults {r : Except Fault Value} (hr : onTimes .add v w = some r) :
    FaultsIn [.overflow] r := by
  unfold onTimes at hr
  split at hr
  all_goals try contradiction
  · cases hr; exact faultsIn_moved _ _
  · cases hr; exact faultsIn_moved _ _
  · cases hr; exact faultsIn_span _

theorem faultsIn_repeatSequence {y : Yield} (hy : repeatSequence h v w = some y) :
    FaultsIn [.type, .overflow] y := by
  unfold repeatSequence at hy
  cases v <;> cases hy
  all_goals
    dsimp only
    split
    · exact .ite (.ok _) (.error rfl)
    · exact .error rfl

theorem faultsIn_joined {y : Yield} (hy : joined h v w = some y) : FaultsIn [.type] y := by
  unfold joined at hy
  split at hy <;> cases hy
  · exact .ok _
  · exact .error rfl
  · exact .ok _
  · exact .error rfl
  · exact .ok _
  · exact .error rfl

theorem faultsIn_onNumbers {a b : Number} {r : Except Fault Number}
    (hr : onNumbers op a b = some r) : FaultsIn [.type, .overflow, .zeroDivision] r := by
  unfold onNumbers at hr
  split at hr <;> cases hr
  · exact (Number.faultsIn_add a b).mono (by simp)
  · exact (Number.faultsIn_sub a b).mono (by simp)
  · exact (Number.faultsIn_mul a b).mono (by simp)
  · exact (Number.faultsIn_div a b).mono (by simp)
  · exact (Number.faultsIn_floorDiv a b).mono (by simp)
  · exact (Number.faultsIn_mod a b).mono (by simp)
  · exact (Number.faultsIn_pow a b).mono (by simp)

theorem format_faults (s : String) :
    RefusedOrEscapes .mod (Data.Percent.format s (h.plain w)) := fun f hf => by
  have hkind := Data.Percent.faultsIn_format s (h.plain w) f hf
  by_cases hrefused : f.kind ∈ [FaultKind.type, .overflow, .zeroDivision]
  · exact .inl hrefused
  · refine .inr (.format hf ?_)
    simp only [List.mem_cons, List.not_mem_nil, or_false, not_or] at hkind hrefused
    tauto

theorem onOthers_faults : RefusedOrEscapes op (onOthers h op v w) := by
  unfold onOthers
  split
  · next r hr => exact (onTimes_faults hr).map _
  · split
    · cases hy : joined h v w with
      | none => exact .expected rfl
      | some y => exact (faultsIn_joined hy).orOthers (by simp)
    · split
      · next y hy => exact (faultsIn_repeatSequence hy).orOthers (by simp)
      · cases hy : repeatSequence h w v with
        | none => exact .expected rfl
        | some y => exact (faultsIn_repeatSequence hy).orOthers (by simp)
    · exact (format_faults _).map _
    · exact .expected rfl

/-- A fault of an operator is refused, or it is one of those that escape. -/
theorem binary_faults : RefusedOrEscapes op (binary h op v w) := by
  unfold binary
  split
  · split
    · next r hr => exact ((faultsIn_onNumbers hr).map _).orOthers (List.Subset.refl _)
    · exact .expected rfl
  · exact onOthers_faults

/-- Sums divide by nothing. -/
theorem faultsIn_add : FaultsIn [.type, .overflow] (binary h .add v w) := by
  unfold binary
  split
  · exact ((Number.faultsIn_add _ _).mono (by simp)).map _
  · unfold onOthers
    split
    · next r hr => exact ((onTimes_add_faults hr).mono (by simp)).map _
    · cases hy : joined h v w with
      | none => exact .error rfl
      | some y => exact (faultsIn_joined hy).mono (by simp)

/-! ## Comparisons -/

theorem isAmong_faults (v : Value) (ws : List Value) : FaultsInOrEndless [] (isAmong h v ws) := by
  induction ws with
  | nil => exact .ok _
  | cons w ws ih =>
    rw [isAmong]
    exact .ite (.ok _) ((h.equal_endless w v).bind fun _ => .ite (.ok _) ih)

theorem contains_faults : FaultsInOrEndless [.type] (contains h v w) := by
  have hamong (v : Value) (ws : List Value) : FaultsInOrEndless [.type] (isAmong h v ws) :=
    (isAmong_faults v ws).mono (by simp)
  unfold contains
  split
  · split
    · exact .ok _
    · exact .expected rfl
  · exact hamong _ _
  · exact hamong _ _
  · split
    · exact .expected rfl
    · exact .ok _
  · exact .expected rfl

end Operator

/-- Whether a comparison looks at more than which objects its operands are. -/
def CompareOp.Compares (op : CompareOp) : Prop :=
  op ≠ .same ∧ op ≠ .notSame

namespace Operator

variable {α : Type} {h : Heap} {v w : Value}

/-- A fault of a comparison is refused, or the comparison has no end. -/
theorem compare_faults (op : CompareOp) :
    FaultsAre (fun f => f.kind ∈ [FaultKind.type] ∨ op.Compares ∧ f = .endlessComparison)
      (compare h op v w) := by
  have hcompares (hop : op.Compares) {r : Except Fault Bool} (hr : FaultsInOrEndless [.type] r) :
      FaultsAre (fun f => f.kind ∈ [FaultKind.type] ∨ op.Compares ∧ f = .endlessComparison) r :=
    hr.imp fun _ hf => hf.imp_right fun hf => ⟨hop, hf⟩
  have hequal : FaultsInOrEndless [.type] (h.equal v w) := (h.equal_endless v w).mono (by simp)
  unfold compare
  cases op with
  | same | notSame => exact .ok _
  | eq => exact hcompares ⟨nofun, nofun⟩ hequal
  | ne => exact hcompares ⟨nofun, nofun⟩ (hequal.map _)
  | lt | le | gt | ge => exact hcompares ⟨nofun, nofun⟩ (h.compareBy_endless _ v w)
  | isIn => exact hcompares ⟨nofun, nofun⟩ contains_faults
  | notIn => exact hcompares ⟨nofun, nofun⟩ (contains_faults.map _)

/-! ## Subscripts -/

/-- The faults of a subscript that are no refusals. -/
def SubscriptEscapes (f : Fault) : Prop :=
  f = .sliceStepZero ∨ f = .integerTextTooLong

/-- A subscript has a result, a fault that is refused, or one that escapes. -/
def SubscriptFaults (r : Except Fault α) : Prop :=
  FaultsAre (fun f => f.kind ∈ [FaultKind.type, .index, .key] ∨ SubscriptEscapes f) r

theorem faultsIn_sliceBound? : FaultsIn [.type] (sliceBound? v) := by
  unfold sliceBound?
  split
  · exact .ok _
  · split
    · exact .ok _
    · exact .error rfl

theorem sliceRange_faults (n : Nat) (start stop step : Value) :
    SubscriptFaults (sliceRange n start stop step) := by
  have hbound (v : Value) : SubscriptFaults (sliceBound? v) :=
    faultsIn_sliceBound?.orOthers (by simp)
  have hrange (f : Option Int → Option Int → Int × Int × Int) : SubscriptFaults
      (sliceBound? start >>= fun a => sliceBound? stop >>= fun b => .ok (f a b)) :=
    (hbound start).bind fun a => (hbound stop).bind fun b => .ok _
  unfold sliceRange
  refine (hbound step).bind fun given => .ite ?_ (hrange _)
  exact FaultsAre.bind (.of_error (.inr (.inl rfl))) fun _ => hrange _

theorem faultsIn_index (kind : Sequence) : FaultsIn [.type, .index] (index kind v) := by
  unfold index
  split
  · exact .ite (.ok _) (.error rfl)
  · cases kind <;> exact .error rfl

theorem fromSequence_faults (kind : Sequence) (xs : List α) (key : Value) :
    SubscriptFaults (fromSequence kind xs key) := by
  unfold fromSequence
  split
  · exact (sliceRange_faults _ _ _ _).bind fun _ => .ok _
  · refine FaultsAre.bind ((faultsIn_index kind).orOthers (by simp)) fun n => ?_
    split
    · exact .ok _
    · exact .expected rfl

/-- A fault of a subscript is refused, or it is one of those that escape. -/
theorem subscript?_faults {y : Yield} (hy : subscript? h v w = some y) : SubscriptFaults y := by
  unfold subscript? at hy
  cases v <;> cases hy
  · exact (fromSequence_faults _ _ _).map _
  · exact (fromSequence_faults _ _ _).map _
  · exact (fromSequence_faults _ _ _).map _
  · split
    · exact .expected rfl
    · split
      · exact .ok _
      · refine FaultsAre.bind ?_ fun l => .expected rfl
        exact (Data.unlistable_listing _).imp fun f hf => .inr (.inr hf)

end Operator

/-! ## Functions -/

namespace Function

variable {h : Heap} {v : Value} {vs : List Value}

theorem faultsIn_itemsOf : FaultsIn [.type] (itemsOf h v) := by
  unfold itemsOf
  split
  · exact .ok _
  · exact .error rfl

theorem faultsIn_bounded (rounding : Parts → Int) :
    FaultsIn [.type, .value, .overflow] (bounded rounding v) := by
  unfold bounded
  split
  · exact .ok _
  · exact ((Data.faultsIn_roundedFloat _ _).map _).mono (by simp)
  · exact .error rfl

theorem faultsIn_squareRoot : FaultsIn [.type, .value, .overflow] (squareRoot v) := by
  unfold squareRoot
  split
  · refine FaultsAre.bind ((Number.faultsIn_toFloat _).mono (by simp)) fun x => ?_
    exact .ite (.throw rfl) (.ok _)
  · exact .error rfl

theorem faultsIn_magnitude : FaultsIn [.type] (magnitude v) := by
  unfold magnitude
  split
  · exact .ok _
  · exact .ok _
  · exact .error rfl

theorem extreme_faults (c : Data.Comparison) (name : String) :
    FaultsInOrEndless [.type, .value] (extreme h c name vs) := by
  unfold extreme
  split
  · exact .expected rfl
  · refine FaultsAre.foldlM (fun best w => ?_) _ _
    exact ((h.compareBy_endless c w best).mono (by simp)).bind fun _ => .ok _

theorem extremeOf_faults (c : Data.Comparison) (name : String) (hvs : vs ≠ []) :
    FaultsInOrEndless [.type, .value] (extremeOf h c name vs) := by
  unfold extremeOf
  split
  · exact absurd rfl hvs
  · exact FaultsAre.bind (faultsIn_itemsOf.orOthers (by simp)) fun vs => extreme_faults c name
  · exact extreme_faults c name

theorem faultsIn_total (start : Value) : FaultsIn [.type, .overflow] (total h start vs) :=
  FaultsAre.foldlM (fun _ _ => Operator.faultsIn_add) _ _

theorem inOrder_faults : FaultsInOrEndless [.type] (inOrder h vs) := fun f hf => by
  have hsort : Sorting.Arranges (h.compareBy .lt) id _ _ := Sorting.sort_arranges vs
  unfold inOrder at hf
  rw [hf] at hsort
  obtain ⟨v, w, hvw⟩ := hsort
  exact h.compareBy_endless .lt v w f hvw

theorem faultsIn_size : FaultsIn [.type, .overflow] (size h v) := by
  unfold size
  dsimp only
  split
  · exact .ite (.error rfl) (.ok _)
  · split
    · exact .ite (.error rfl) (.ok _)
    · exact .error rfl

theorem faultsIn_toText : FaultsIn [.type, .value] (toText h vs) := by
  unfold toText
  split
  · exact .ok _
  · exact FaultsAre.bind ((Data.unlistable_asText _).faultsIn.mono (by simp)) fun _ => .ok _
  · refine .ite (.error rfl) ?_
    split
    · exact .ite (.error rfl) (.error rfl)
    · exact .ite (.error rfl) (.ite (.error rfl) (.error rfl))
    · exact .error rfl

theorem faultsIn_readJson : FaultsIn [.type, .value] (readJson h v) := by
  unfold readJson
  split
  · exact ((Json.faultsIn_read _).map _).mono (by simp)
  · exact .error rfl

/-- The kinds of faults for which a call is refused. -/
def refusedKinds : List FaultKind :=
  [.type, .value, .overflow]

/-- The faults for which a call of a function with a number of arguments is not refused: what
    compares its arguments may find no end, and a function from outside may let out anything. -/
inductive Escapes : Function → Nat → Fault → Prop
  | extreme {f : Function} {n : Nat} (hf : f = .max ∨ f = .min) (hn : n ≠ 0) :
    Escapes f n .endlessComparison
  | sorting : Escapes .sorted 1 .endlessComparison
  | host {read : List Data → Except Fault Data} {ds : List Data} {g : Fault}
    (hg : read ds = .error g) (hkind : g.kind ∉ refusedKinds) : Escapes (.host read) ds.length g

/-- A call has a result, a fault for which it is refused, or one that escapes. -/
def CallFaults {α : Type} (f : Function) (n : Nat) (r : Except Fault α) : Prop :=
  FaultsAre (fun g => g.kind ∈ refusedKinds ∨ f.Escapes n g) r

theorem CallFaults.of_endless {α : Type} {f : Function} {n : Nat} {ks : List FaultKind}
    {r : Except Fault α} (hf : f.Escapes n .endlessComparison) (hks : ks ⊆ refusedKinds)
    (hr : FaultsInOrEndless ks r) : CallFaults f n r :=
  hr.imp fun _ hg => hg.imp (fun hkind => hks hkind) fun hendless => by rwa [hendless]

theorem CallFaults.of_refused {α : Type} {f : Function} {n : Nat} {r : Except Fault α}
    (hr : FaultsIn refusedKinds r) : CallFaults f n r :=
  hr.imp fun _ => .inl

theorem extremeCall_faults {f : Function} (hf : f = .max ∨ f = .min) (c : Data.Comparison)
    (name : String) : CallFaults f vs.length (extremeOf h c name vs) := by
  cases vs with
  | nil => exact .of_refused (.error rfl)
  | cons v vs =>
    exact .of_endless (.extreme hf (by simp)) (by simp [refusedKinds])
      (extremeOf_faults c name (List.cons_ne_nil v vs))

/-- **A fault of a call** is refused, or it is one of those that escape. -/
theorem pure?_faults (f : Function) : CallFaults f vs.length (pure? h f vs) := by
  have hitems (v : Value) : FaultsIn refusedKinds (itemsOf h v) :=
    faultsIn_itemsOf.mono (by simp [refusedKinds])
  have htotal (start : Value) (ws : List Value) : FaultsIn refusedKinds (total h start ws) :=
    (faultsIn_total start).mono (by simp [refusedKinds])
  unfold pure?
  split
  all_goals first
    | exact .ok _
    | exact .expected rfl
    | skip
  -- numbers of one argument
  · exact .of_refused ((faultsIn_magnitude.mono (by simp [refusedKinds])).map _)
  · exact .of_refused (((hitems _).map _).map _)
  · exact .of_refused (((hitems _).map _).map _)
  · exact .of_refused ((faultsIn_bounded _).map _)
  · exact .of_refused ((faultsIn_bounded _).map _)
  · exact .of_refused (((Data.faultsIn_toDouble _).map _).map _)
  · exact .of_refused (((Data.faultsIn_toWhole _).map _).map _)
  · exact .of_refused (((Data.faultsIn_toWholeInBase _ _).map _).map _)
  · exact .of_refused ((faultsIn_size.mono (by simp [refusedKinds])).map _)
  · exact .of_refused ((hitems _).map _)
  -- what compares its arguments
  · exact (extremeCall_faults (.inl rfl) _ _).map _
  · exact (extremeCall_faults (.inr rfl) _ _).map _
  · exact .of_refused (((Data.faultsIn_rounded _ _).map _).map _)
  · exact .of_refused (((Data.faultsIn_rounded _ _).map _).map _)
  · exact .of_refused (((Data.faultsIn_rounded _ _).map _).map _)
  · refine FaultsAre.map (FaultsAre.bind ((hitems _).imp fun _ => .inl) fun ws => ?_) _
    exact CallFaults.of_endless .sorting (by simp [refusedKinds]) inOrder_faults
  · exact .of_refused (faultsIn_squareRoot.map _)
  · exact .of_refused ((faultsIn_toText.mono (by simp [refusedKinds])).map _)
  · exact .of_refused (FaultsAre.bind (hitems _) fun ws => htotal _ ws)
  · refine .of_refused (FaultsAre.bind (hitems _) fun ws => ?_)
    split
    · exact .throw rfl
    · exact htotal _ ws
  · exact .of_refused (faultsIn_readJson.mono (by simp [refusedKinds]))
  · exact .of_refused ((((Json.faultsIn_write _ _).map _).mono (by simp [refusedKinds])).map _)
  · next read =>
    refine FaultsAre.map (fun g hg => ?_) _
    by_cases hkind : g.kind ∈ refusedKinds
    · exact .inl hkind
    · have hlength : (vs.map h.plain).length = vs.length := List.length_map h.plain
      exact .inr (hlength ▸ .host hg hkind)

/-- A call ends early with a refusal of its own, with a fault for which it is refused, or with one
    that escapes. -/
def CallStop (f : Function) (n : Nat) (stop : Stop) : Prop :=
  (∃ e, stop = .error e) ∨ ∃ g : Fault, stop = .fault g ∧ (g.kind ∈ refusedKinds ∨ f.Escapes n g)

/-- A computation that stops early stops as a call may. -/
def CallStops {α : Type} (f : Function) (n : Nat) (x : Run α) : Prop :=
  ∀ m, Ends (fun stop _ => CallStop f n stop) (fun _ _ => True) m x

namespace CallStops

variable {α β : Type} {f : Function} {n : Nat}

theorem pure (a : α) : CallStops f n (Pure.pure a : Run α) :=
  fun _ => trivial

theorem throw {g : Fault} (hg : refusedKinds.contains g.kind = true) :
    CallStops f n (MonadExcept.throw (Stop.fault g) : Run α) :=
  fun _ => .inr ⟨g, rfl, .inl (by simpa using hg)⟩

theorem bind {x : Run α} {g : α → Run β} (hx : CallStops f n x) (hg : ∀ a, CallStops f n (g a)) :
    CallStops f n (x >>= g) :=
  fun m => .bind ((hx m).mono (fun _ _ => id) fun a m' _ => hg a m')

theorem heap {g : Heap → Run α} (hg : ∀ h, CallStops f n (g h)) : CallStops f n (Run.heap >>= g) :=
  fun m => hg m.heap m

theorem ofExcept {r : Except Fault α} (hr : CallFaults f n r) :
    CallStops f n (Run.ofExcept r) := fun m => by
  cases r with
  | ok a => exact trivial
  | error g => exact .inr ⟨g, rfl, hr g rfl⟩

end CallStops

variable {f : Function} {n : Nat}

theorem rangeItems_stops (start stop step : Int) : CallStops f n (rangeItems start stop step) := by
  unfold rangeItems
  split
  · exact .throw rfl
  · dsimp only
    split
    · exact .throw rfl
    · split
      · exact fun _ => .inl ⟨_, rfl⟩
      · exact .pure _

theorem rangeCall_stops (vs : List Value) : CallStops f n (rangeCall vs) := by
  refine .heap fun h => .bind (.ofExcept (.of_refused ?_)) fun bounds => .bind (rangeItems_stops _ _ _) ?_
  · have hwhole (v : Value) : FaultsIn refusedKinds (h.plain v).asWhole :=
      (Data.faultsIn_asWhole _).mono (by simp [refusedKinds])
    split
    · exact (hwhole _).bind fun b => .ok _
    · exact (hwhole _).bind fun a => (hwhole _).bind fun b => .ok _
    · exact (hwhole _).bind fun a => (hwhole _).bind fun b => (hwhole _).bind fun c => .ok _
    · exact .error rfl
  · exact fun items => .heap fun h => fun m => trivial

theorem logCall_stops (vs : List Value) : CallStops f n (logCall vs) := by
  refine .heap fun h => .bind (.ofExcept (.of_refused (.mapM (fun v => ?_) vs)))
    fun texts => fun m => trivial
  exact (Data.unlistable_asText _).faultsIn.mono (by simp [refusedKinds])

/-- **A call is refused** whenever it has no result, unless its fault escapes. -/
theorem apply_stops (f : Function) (vs : List Value) : CallStops f vs.length (f.apply vs) := by
  unfold apply
  split
  · exact rangeCall_stops vs
  · exact logCall_stops vs
  · exact .heap fun h => .bind (.ofExcept (pure?_faults f)) fun p m => trivial

end Function

end Rulebook.Script
