/-
  Batches of actions.

  A batch whose orders are whole numbers runs its actions one after the other, by order and then by
  place, each on what those before it left.  No failure, skipped action or missing handler changes
  that: every action comes to a result, and the results stand in the places of their actions.  Only
  where there is no time for guards does a batch end at the first action that has one.

  * `within_eq`: what is done within a scope of the log context is done between entering and leaving
    it;
  * `settleAll_eq`: bringing actions to their results is a fold;
  * `inPlace_getElem?`: results are given back by place;
  * `runBatch_isolates`: the batch as a whole, and the same actions given in another order.
-/
import Mathlib.Data.List.Perm.Basic
import Mathlib.Data.Option.Basic
import Rulebook.Executor
import Rulebook.Proofs.Number.Range
import Rulebook.Proofs.Sorting

namespace Rulebook

/-! ## Scopes of the log context -/

namespace EngineState

/-- A state within a scope. -/
def entered (s : EngineState) (bindings : List (LogKey × Data)) : EngineState :=
  s.setLog (s.log.enter bindings []).1

/-- What is left of a state within a scope that was entered from another, after the scope. -/
def leaving (s inside : EngineState) (bindings : List (LogKey × Data)) : EngineState :=
  inside.setLog (inside.log.leave (s.log.enter bindings []).2)

theorem within_eq {α : Type} (bindings : List (LogKey × Data)) (body : EngineState → α × EngineState)
    (s : EngineState) :
    s.within bindings body =
      ((body (s.entered bindings)).1, s.leaving (body (s.entered bindings)).2 bindings) :=
  rfl

end EngineState

/-! ## Orders -/

namespace Data

/-- Whole numbers are compared as such. -/
theorem compareBy_of_whole {d e : Data} {m n : Int} (hd : d.number? = some (.int m))
    (he : e.number? = some (.int n)) : compareBy .lt d e = .ok (decide (m < n)) := by
  have key (type : String) (k : Int) : compareNumber .lt type (.int k) e =
      .ok (decide (k < n)) := by
    rw [compareNumber, he]
    simp only [Number.order, compare, compareOfLessAndEq, Comparison.holds]
    split_ifs <;> simp_all
  cases d <;> simp only [number?, reduceCtorEq] at hd
  case bool v => rw [compareBy, key, Number.int.inj (Option.some.inj hd)]
  case int k => rw [compareBy, key, Number.int.inj (Option.some.inj hd)]
  case float x => exact absurd (Option.some.inj hd) (by simp)

end Data

namespace Action

/-- The order of an action as a whole number, zero if it is none. -/
def rank (a : Action) : Int :=
  match a.order.number? with
  | some (.int n) => n
  | _ => 0

/-- The order of an action is a whole number. -/
def Ranked (a : Action) : Prop :=
  a.order.number? = some (.int a.rank)

end Action

namespace Executor

/-- The actions of a batch with their places. -/
def places (actions : List Action) : List (Nat × Action) :=
  (List.range actions.length).zip actions

/-- Actions with their places, in the order in which a batch has to run them. -/
structure InTurn (actions : List Action) (turns : List (Nat × Action)) : Prop where
  perm : turns.Perm (places actions)
  order : turns.Pairwise fun t u =>
    t.2.rank < u.2.rank ∨ t.2.rank = u.2.rank ∧ t.1 < u.1

theorem places_getElem? (actions : List Action) (i : Nat) :
    (places actions)[i]? = actions[i]?.map fun a => (i, a) := by
  by_cases h : i < actions.length
  · simp [places, h]
  · simp [places, h]

theorem mem_places_iff {actions : List Action} {i : Nat} {a : Action} :
    (i, a) ∈ places actions ↔ actions[i]? = some a := by
  rw [List.mem_iff_getElem?]
  constructor
  · rintro ⟨j, hj⟩
    rw [places_getElem?] at hj
    obtain ⟨b, hb, heq⟩ := Option.map_eq_some_iff.1 hj
    cases heq
    exact hb
  · exact fun h => ⟨i, by rw [places_getElem?, h]; rfl⟩

theorem places_fst (actions : List Action) :
    (places actions).map (·.1) = List.range actions.length :=
  List.map_fst_zip (by simp)

theorem places_snd (actions : List Action) : (places actions).map (·.2) = actions :=
  List.map_snd_zip (by simp)

/-- A batch that is put in order is so as a whole. -/
theorem ordered_perm {actions : List Action} {turns : List (Nat × Action)}
    (h : ordered actions = .ok turns) : turns.Perm (places actions) := by
  have harranges : Sorting.Arranges
      (fun t u : Nat × Action => Data.compareBy .lt t.2.order u.2.order) id (places actions)
      (ordered actions) := Sorting.sort_arranges _
  rw [h] at harranges
  exact harranges

theorem ordered_snd_perm {actions : List Action} {turns : List (Nat × Action)}
    (h : ordered actions = .ok turns) : (turns.map (·.2)).Perm actions := by
  have := (ordered_perm h).map (·.2)
  rwa [places_snd] at this

theorem ordered_length {actions : List Action} {turns : List (Nat × Action)}
    (h : ordered actions = .ok turns) : turns.length = actions.length := by
  simpa using (ordered_snd_perm h).length_eq

/-- Whole numbers as orders put a batch in order. -/
theorem ordered_inTurn {actions : List Action} (h : ∀ a ∈ actions, a.Ranked) :
    ∃ turns, ordered actions = .ok turns ∧ InTurn actions turns := by
  have hP : ∀ t ∈ places actions, t.2.Ranked := fun t ht => by
    obtain ⟨i, a⟩ := t
    exact h a (List.mem_of_getElem? (mem_places_iff.1 ht))
  have hl : Sorting.ByRank (fun t u : Nat × Action => Data.compareBy .lt t.2.order u.2.order)
      (fun t => t.2.rank) fun t => t.2.Ranked :=
    fun t u => Data.compareBy_of_whole
  obtain ⟨turns, hs, hst⟩ := Sorting.sort_stable hl hP
  have hplaces : (places actions).Pairwise fun t u => t.1 < u.1 := by
    rw [← List.pairwise_map (f := Prod.fst), places_fst]
    exact List.pairwise_lt_range
  exact ⟨turns, hs, hst.perm, hst.pairwise_places hplaces⟩

namespace InTurn

variable {actions : List Action} {turns : List (Nat × Action)}

theorem fst_perm (h : InTurn actions turns) :
    (turns.map (·.1)).Perm (List.range actions.length) := by
  rw [← places_fst]
  exact h.perm.map _

theorem snd_perm (h : InTurn actions turns) : (turns.map (·.2)).Perm actions := by
  have := h.perm.map (·.2)
  rwa [places_snd] at this

theorem sorted (h : InTurn actions turns) :
    (turns.map (·.2)).Pairwise fun a b => a.rank ≤ b.rank :=
  List.pairwise_map.2 (h.order.imp fun {_ _} hr => by omega)

theorem getElem?_eq (h : InTurn actions turns) {k i : Nat} {a : Action}
    (hk : turns[k]? = some (i, a)) : actions[i]? = some a :=
  mem_places_iff.1 (h.perm.mem_iff.1 (List.mem_of_getElem? hk))

/-- With distinct orders, what runs after what depends on the actions only. -/
theorem snd_eq_of_perm {actions' : List Action} {turns' : List (Nat × Action)}
    (h : InTurn actions turns) (h' : InTurn actions' turns') (hp : actions'.Perm actions)
    (hd : actions.Pairwise fun a b => a.rank ≠ b.rank) : turns'.map (·.2) = turns.map (·.2) := by
  have : Std.Symm fun a b : Action => a.rank ≠ b.rank := ⟨fun _ _ h => h.symm⟩
  have hinj : ∀ a ∈ actions, ∀ b ∈ actions, a.rank = b.rank → a = b := fun a ha b hb hab => by
    by_contra hne
    exact hd.forall ha hb hne hab
  have hperm : (turns'.map (·.2)).Perm (turns.map (·.2)) :=
    (h'.snd_perm.trans hp).trans h.snd_perm.symm
  exact hperm.eq_of_pairwise (fun a b ha hb hab hba =>
    hinj a (h.snd_perm.mem_iff.1 (hperm.mem_iff.1 ha)) b (h.snd_perm.mem_iff.1 hb)
      (le_antisymm hab hba)) h'.sorted h.sorted

end InTurn

/-! ## Time for guards -/

/-- There is time for guards. -/
def TimesGuards (x : Executor) : Prop :=
  ∃ seconds, x.guardTime = .ok seconds

/-- There is time for guards unless what is set for them is too large for a double. -/
theorem timesGuards_iff {x : Executor} :
    x.TimesGuards ↔ x.config.guardTimeout.natAbs + 2 ^ 970 < 2 ^ 1024 := by
  have hlarge (f : Fault) :=
    Number.toFloat_int_eq_error_iff (n := x.config.guardTimeout) (f := f)
  unfold TimesGuards guardTime
  rw [← not_le]
  cases htime : (Number.int x.config.guardTimeout).toFloat with
  | ok t =>
    have hsmall : ¬2 ^ 1024 ≤ x.config.guardTimeout.natAbs + 2 ^ 970 := fun h =>
      nomatch htime.symm.trans ((hlarge .integerTooLargeForFloat).2 ⟨rfl, h⟩)
    exact iff_of_true ⟨_, rfl⟩ hsmall
  | error f =>
    have hfault := ((hlarge f).1 htime).2
    exact iff_of_false (fun ⟨seconds, h⟩ => nomatch h) (not_not_intro hfault)

theorem TimesGuards.guardFault?_eq_none {x : Executor} (h : x.TimesGuards) (a : Action) :
    x.guardFault? a = none := by
  obtain ⟨seconds, hseconds⟩ := h
  unfold guardFault?
  rw [hseconds]
  exact ite_self none

/-! ## One action after the other -/

variable (x : Executor) (report : Bool) (c : Context)

/-- What actions leave that are brought to their results one after the other. -/
def after (actions : List Action) (s : EngineState) : EngineState :=
  actions.foldl (fun s a => (x.settle report c a s).2) s

/-- The result of every action, brought to it on what those before it left. -/
def resultsInTurn : List Action → EngineState → List ActionResult
  | [], _ => []
  | a :: rest, s => (x.settle report c a s).1 :: resultsInTurn rest (x.settle report c a s).2

/-- The actions of a batch that it comes to: all that stand before the first whose guard has no
    time. -/
def reached (actions : List Action) : List Action :=
  actions.takeWhile fun a => (x.guardFault? a).isNone

/-- The fault that a batch ends in, if it does. -/
def batchFault? (actions : List Action) : Option Fault :=
  actions.findSome? x.guardFault?

/-- A batch comes to all its actions, or to those before the one that it ends at. -/
theorem reached_cases (actions : List Action) :
    (x.batchFault? actions = none ∧ x.reached actions = actions) ∨
    ∃ f a rest, x.batchFault? actions = some f ∧ x.guardFault? a = some f ∧
      actions = x.reached actions ++ a :: rest := by
  induction actions with
  | nil => exact .inl ⟨rfl, rfl⟩
  | cons a actions ih =>
    rw [batchFault?, reached, List.findSome?_cons, List.takeWhile_cons]
    cases ha : x.guardFault? a with
    | some f => exact .inr ⟨f, a, actions, rfl, ha, rfl⟩
    | none =>
      obtain ⟨hf, hall⟩ | ⟨f, b, rest, hf, hb, hsplit⟩ := ih
      · exact .inl ⟨hf, congrArg (a :: ·) hall⟩
      · exact .inr ⟨f, b, rest, hf, hb, congrArg (a :: ·) hsplit⟩

theorem reached_eq_take (actions : List Action) :
    x.reached actions = actions.take (x.reached actions).length :=
  List.prefix_iff_eq_take.1 (List.takeWhile_prefix _)

theorem batchFault?_eq_none_iff {actions : List Action} :
    x.batchFault? actions = none ↔ ∀ a ∈ actions, x.guardFault? a = none :=
  List.findSome?_eq_none_iff

theorem reached_of_none {actions : List Action} (h : x.batchFault? actions = none) :
    x.reached actions = actions := by
  obtain ⟨-, hall⟩ | ⟨f, -, -, hf, -⟩ := x.reached_cases actions
  · exact hall
  · exact absurd (hf.symm.trans h) nofun

theorem settleAll_eq (turns : List (Nat × Action)) (s : EngineState) :
    x.settleAll report c turns s =
      (match x.batchFault? (turns.map (·.2)) with
        | none => .ok ((turns.map (·.1)).zip (x.resultsInTurn report c (turns.map (·.2)) s))
        | some f => .error f,
        x.after report c (x.reached (turns.map (·.2))) s) := by
  induction turns generalizing s with
  | nil => rfl
  | cons t rest ih =>
    rw [settleAll, batchFault?, reached, List.map_cons, List.findSome?_cons, List.takeWhile_cons]
    cases x.guardFault? t.2 with
    | some f => rfl
    | none =>
      dsimp only
      rw [ih, batchFault?]
      cases List.findSome? x.guardFault? (rest.map (·.2)) <;> rfl

theorem resultsInTurn_length (actions : List Action) (s : EngineState) :
    (x.resultsInTurn report c actions s).length = actions.length := by
  induction actions generalizing s with
  | nil => rfl
  | cons a rest ih => simp [resultsInTurn, ih]

theorem resultsInTurn_getElem? (actions : List Action) (s : EngineState) (k : Nat) :
    (x.resultsInTurn report c actions s)[k]? =
      actions[k]?.map fun a => (x.settle report c a (x.after report c (actions.take k) s)).1 := by
  induction actions generalizing s k with
  | nil => rfl
  | cons a rest ih =>
    cases k with
    | zero => rfl
    | succ k => exact ih _ k

theorem settle_names (a : Action) (s : EngineState) :
    (x.settle report c a s).1.actionId = a.id ∧ (x.settle report c a s).1.actionType = a.type := by
  simp only [settle]
  split
  · exact ⟨rfl, rfl⟩
  · next h _ => cases (x.execute a c (s.setHeap h).surroundings).1 <;> exact ⟨rfl, rfl⟩

/-! ## Results in their places -/

theorem lookup_eq_some_iff {β : Type} {es : List (Nat × β)} (h : (es.map (·.1)).Nodup) {i : Nat}
    {b : β} : es.lookup i = some b ↔ (i, b) ∈ es := by
  induction es with
  | nil => simp
  | cons e es ih =>
    obtain ⟨j, b'⟩ := e
    obtain ⟨hj, hes⟩ := List.nodup_cons.1 h
    by_cases hij : i = j
    · subst hij
      have hno : (i, b) ∉ es := fun hb => hj (List.mem_map.2 ⟨_, hb, rfl⟩)
      simp [hno, eq_comm]
    · rw [List.lookup_cons, beq_false_of_ne hij, ih hes]
      simp [hij]

theorem filterMap_length {α β : Type} {f : α → Option β} {as : List α}
    (h : ∀ a ∈ as, (f a).isSome) : (as.filterMap f).length = as.length := by
  induction as with
  | nil => rfl
  | cons a as ih =>
    obtain ⟨b, hb⟩ := Option.isSome_iff_exists.1 (h a (by simp))
    rw [List.filterMap_cons_some hb, List.length_cons, List.length_cons,
      ih fun a' ha' => h a' (by simp [ha'])]

theorem filterMap_getElem? {α β : Type} {f : α → Option β} {as : List α}
    (h : ∀ a ∈ as, (f a).isSome) (k : Nat) : (as.filterMap f)[k]? = as[k]?.bind f := by
  induction as generalizing k with
  | nil => rfl
  | cons a as ih =>
    obtain ⟨b, hb⟩ := Option.isSome_iff_exists.1 (h a (by simp))
    rw [List.filterMap_cons_some hb]
    cases k with
    | zero => simp [hb]
    | succ k => simpa using ih (fun a' ha' => h a' (by simp [ha'])) k

section

variable {n : Nat} {es : List (Nat × ActionResult)} (h : (es.map (·.1)).Perm (List.range n))
include h

theorem lookup_isSome_iff {i : Nat} : (es.lookup i).isSome ↔ i ∈ List.range n := by
  have hnodup : (es.map (·.1)).Nodup := h.nodup_iff.2 List.nodup_range
  rw [← h.mem_iff, List.mem_map, Option.isSome_iff_exists]
  constructor
  · rintro ⟨r, hr⟩
    exact ⟨(i, r), (lookup_eq_some_iff hnodup).1 hr, rfl⟩
  · rintro ⟨⟨_, r⟩, hr, rfl⟩
    exact ⟨r, (lookup_eq_some_iff hnodup).2 hr⟩

theorem inPlace_length : (inPlace n es).length = n := by
  rw [inPlace, filterMap_length fun i hi => (lookup_isSome_iff h).2 hi, List.length_range]

theorem inPlace_getElem?_of_mem {i : Nat} {r : ActionResult} (hr : (i, r) ∈ es) :
    (inPlace n es)[i]? = some r := by
  have hi : i < n := List.mem_range.1 (h.mem_iff.1 (List.mem_map_of_mem (f := Prod.fst) hr))
  rw [inPlace, filterMap_getElem? fun i hi => (lookup_isSome_iff h).2 hi, List.getElem?_range hi]
  exact (lookup_eq_some_iff (h.nodup_iff.2 List.nodup_range)).2 hr

end

/-! ## Whole batches -/

/-- The results of a batch that runs in some order, in the places of its actions. -/
def resultsInPlace (turns : List (Nat × Action)) (s : EngineState) : List ActionResult :=
  inPlace turns.length ((turns.map (·.1)).zip (x.resultsInTurn report c (turns.map (·.2)) s))

theorem runBatch_eq {actions : List Action} {turns : List (Nat × Action)}
    (h : ordered actions = .ok turns) (hlen : turns.length = actions.length) (s : EngineState) :
    x.runBatch report c actions s =
      (match x.batchFault? (turns.map (·.2)) with
        | none => .ok (x.resultsInPlace report c turns (s.entered (bindings c s.heap)))
        | some f => .error f,
        s.leaving (x.after report c (x.reached (turns.map (·.2))) (s.entered (bindings c s.heap)))
          (bindings c s.heap)) := by
  rw [runBatch, h]
  dsimp only
  rw [EngineState.within_eq, settleAll_eq]
  cases x.batchFault? (turns.map (·.2)) with
  | none => simp only [resultsInPlace, hlen]; rfl
  | some f => rfl

theorem runBatch_of_none {actions : List Action} {turns : List (Nat × Action)}
    (h : ordered actions = .ok turns) (hlen : turns.length = actions.length)
    (hf : x.batchFault? (turns.map (·.2)) = none) (s : EngineState) :
    x.runBatch report c actions s =
      (.ok (x.resultsInPlace report c turns (s.entered (bindings c s.heap))),
        s.leaving (x.after report c (turns.map (·.2)) (s.entered (bindings c s.heap)))
          (bindings c s.heap)) := by
  rw [runBatch_eq x report c h hlen, hf, reached_of_none x hf]

/-- A batch whose actions cannot be put in order changes nothing. -/
theorem runBatch_of_error {actions : List Action} {f : Fault} (h : ordered actions = .error f)
    (s : EngineState) : x.runBatch report c actions s = (.error f, s) := by
  rw [runBatch, h]

theorem after_keeps {P : EngineState → Prop} (hstep : ∀ a s, P s → P (x.settle report c a s).2)
    (actions : List Action) {s : EngineState} (hs : P s) : P (x.after report c actions s) := by
  induction actions generalizing s with
  | nil => exact hs
  | cons a rest ih => exact ih (hstep a s hs)

/-- A batch keeps what each action keeps, if it does not depend on what is known for the log. -/
theorem runBatch_keeps {P : EngineState → Prop} (hlog : ∀ s log, P s → P (s.setLog log))
    (hstep : ∀ a s, P s → P (x.settle report c a s).2) (actions : List Action) {s : EngineState}
    (hs : P s) : P (x.runBatch report c actions s).2 := by
  cases hturns : ordered actions with
  | error f => rwa [runBatch_of_error x report c hturns]
  | ok turns =>
    rw [runBatch_eq x report c hturns (ordered_length hturns)]
    exact hlog _ _ (after_keeps x report c hstep _ (hlog _ _ hs))

section

variable {actions : List Action} {turns : List (Nat × Action)} (h : turns.Perm (places actions))
include h

theorem zip_places_fst_perm (s : EngineState) :
    (((turns.map (·.1)).zip (x.resultsInTurn report c (turns.map (·.2)) s)).map (·.1)).Perm
      (List.range turns.length) := by
  rw [List.map_fst_zip (by simp [resultsInTurn_length]), ← List.length_map (·.2),
    (h.map (·.2)).length_eq, places_snd, ← places_fst]
  exact h.map _

/-- Every action that has a turn comes to its result in its place. -/
theorem resultsInPlace_of_places (s : EngineState) {k i : Nat} {a : Action}
    (hk : turns[k]? = some (i, a)) :
    (x.resultsInPlace report c turns s)[i]? =
      some (x.settle report c a (x.after report c ((turns.take k).map (·.2)) s)).1 := by
  refine inPlace_getElem?_of_mem (zip_places_fst_perm x report c h s)
    (List.mem_iff_getElem?.2 ⟨k, ?_⟩)
  rw [List.getElem?_zip_eq_some]
  simp [resultsInTurn_getElem?, hk, List.map_take]

end

section

variable {actions : List Action} {turns : List (Nat × Action)} (h : InTurn actions turns)
include h

theorem InTurn.length_eq : turns.length = actions.length := by
  simpa using h.snd_perm.length_eq

theorem InTurn.exists_turn {i : Nat} {a : Action} (hi : actions[i]? = some a) :
    ∃ k : Nat, turns[k]? = some (i, a) :=
  List.mem_iff_getElem?.1 (h.perm.mem_iff.2 (mem_places_iff.2 hi))

theorem zip_fst_perm (s : EngineState) :
    (((turns.map (·.1)).zip (x.resultsInTurn report c (turns.map (·.2)) s)).map (·.1)).Perm
      (List.range turns.length) :=
  zip_places_fst_perm x report c h.perm s

theorem resultsInPlace_length (s : EngineState) :
    (x.resultsInPlace report c turns s).length = actions.length :=
  (inPlace_length (zip_fst_perm x report c h s)).trans h.length_eq

theorem resultsInPlace_of_turn (s : EngineState) {k i : Nat} {a : Action}
    (hk : turns[k]? = some (i, a)) :
    (x.resultsInPlace report c turns s)[i]? =
      some (x.settle report c a (x.after report c ((turns.take k).map (·.2)) s)).1 :=
  resultsInPlace_of_places x report c h.perm s hk

/-- The actions with their results, as these were come to. -/
theorem zip_resultsInPlace_perm (s : EngineState) :
    (actions.zip (x.resultsInPlace report c turns s)).Perm
      ((turns.map (·.2)).zip (x.resultsInTurn report c (turns.map (·.2)) s)) := by
  have hlen := resultsInPlace_length x report c h s
  refine (List.map_perm_map_iff (Option.some_injective _)).1 ?_
  have hplaces : (List.range actions.length).map
      ((actions.zip (x.resultsInPlace report c turns s))[·]?) =
        (actions.zip (x.resultsInPlace report c turns s)).map some := by
    refine List.ext_getElem (by simp [hlen]) fun i hi _ => ?_
    simp only [List.length_map, List.length_range] at hi
    simp [hi, hlen]
  have hturns : (turns.map (·.1)).map ((actions.zip (x.resultsInPlace report c turns s))[·]?) =
      ((turns.map (·.2)).zip (x.resultsInTurn report c (turns.map (·.2)) s)).map some := by
    refine List.ext_getElem (by simp [resultsInTurn_length]) fun k hk _ => ?_
    simp only [List.length_map] at hk
    have hturn : turns[k]? = some (turns[k].1, turns[k].2) := List.getElem?_eq_getElem hk
    have hplace := List.getElem?_zip_eq_some (z := (turns[k].2, _)).2
      ⟨h.getElem?_eq hturn, resultsInPlace_of_turn x report c h s hturn⟩
    have hresult : (x.resultsInTurn report c (turns.map (·.2)) s)[k]? =
        some (x.settle report c turns[k].2 (x.after report c ((turns.take k).map (·.2)) s)).1 := by
      rw [resultsInTurn_getElem?, List.getElem?_map, hturn, List.map_take]
      rfl
    rw [← Option.some_inj, ← List.getElem?_eq_getElem, ← List.getElem?_eq_getElem,
      List.getElem?_map, List.getElem?_map, List.getElem?_map, hturn,
      List.getElem?_zip_eq_some (z := (turns[k].2, _)).2
        ⟨by rw [List.getElem?_map, hturn]; rfl, hresult⟩]
    exact congrArg some hplace
  rw [← hplaces, ← hturns]
  exact h.fst_perm.symm.map _

end

theorem batchFault?_of_perm {actions turns : List Action} (hp : turns.Perm actions)
    (h : ∀ a ∈ actions, x.guardFault? a = none) : x.batchFault? turns = none :=
  (x.batchFault?_eq_none_iff).2 fun a ha => h a (hp.mem_iff.1 ha)

/-- **A batch is a fold that isolates failures.** If the orders are whole numbers and there is time
    for guards, all actions come to results in their places, with their names; within the scope of
    the batch, these and the state are those of bringing one action after the other to its result, in
    ascending order and otherwise by place. With distinct orders, the places make no difference. -/
theorem runBatch_isolates (actions : List Action) (s : EngineState)
    (h : ∀ a ∈ actions, a.Ranked) (ht : ∀ a ∈ actions, x.guardFault? a = none) :
    let bound := bindings c s.heap
    ∃ turns results, InTurn actions turns ∧
      x.runBatch report c actions s =
        (.ok results, s.leaving (x.after report c (turns.map (·.2)) (s.entered bound)) bound) ∧
      results.length = actions.length ∧
      (∀ (i : Nat) (a : Action), actions[i]? = some a →
        ∃ r, results[i]? = some r ∧ r.actionId = a.id ∧ r.actionType = a.type) ∧
      (∀ (k i : Nat) (a : Action), turns[k]? = some (i, a) → results[i]? =
        some (x.settle report c a
          (x.after report c ((turns.take k).map (·.2)) (s.entered bound))).1) ∧
      ∀ actions', actions'.Perm actions → (actions.Pairwise fun a b => a.rank ≠ b.rank) →
        ∃ results', x.runBatch report c actions' s =
            (.ok results', s.leaving (x.after report c (turns.map (·.2)) (s.entered bound)) bound) ∧
          results'.length = actions.length ∧ (actions'.zip results').Perm (actions.zip results) := by
  intro bound
  obtain ⟨turns, ho, hturns⟩ := ordered_inTurn h
  have hnone := batchFault?_of_perm x hturns.snd_perm ht
  refine ⟨turns, x.resultsInPlace report c turns (s.entered bound), hturns,
    runBatch_of_none x report c ho hturns.length_eq hnone s,
    resultsInPlace_length x report c hturns _, fun i a hi => ?_,
    fun k i a hk => resultsInPlace_of_turn x report c hturns _ hk, fun actions' hp hd => ?_⟩
  · obtain ⟨k, hk⟩ := hturns.exists_turn hi
    exact ⟨_, resultsInPlace_of_turn x report c hturns _ hk, settle_names x report c a _⟩
  · obtain ⟨turns', ho', hturns'⟩ := ordered_inTurn fun a ha => h a (hp.mem_iff.1 ha)
    have heq := hturns.snd_eq_of_perm hturns' hp hd
    refine ⟨x.resultsInPlace report c turns' (s.entered bound), ?_, ?_, ?_⟩
    · rw [runBatch_of_none x report c ho' hturns'.length_eq (heq ▸ hnone) s, heq]
    · rw [resultsInPlace_length x report c hturns', hp.length_eq]
    · have hzip' := zip_resultsInPlace_perm x report c hturns' (s.entered bound)
      rw [heq] at hzip'
      exact hzip'.trans (zip_resultsInPlace_perm x report c hturns (s.entered bound)).symm

theorem runBatch_isolates_two :
    let first : Action := { id := .text "a", type := "APPROVE", order := .int 1 }
    let second : Action :=
      { id := .text "b", type := "REJECT", order := .int 2, guard := .text "1 >" }
    let x : Executor :=
      { config := {}, handlers := Handler.standard {} { id := id, time := "now" } none }
    let c : Context := ⟨.null, .null, .null, .null, .null, .null⟩
    let s : EngineState :=
      { surroundings :=
          { breakers := { settings := { recovery := 30.0 } }, clock := fun _ => 0.0, replies := [] }
        statistics := { errorLimit := 5, total := Record.fresh }
        metrics := none, clock := ⟨0, 0⟩ }
    (∀ a ∈ [second, first], a.Ranked) ∧ (∀ a ∈ [second, first], x.guardFault? a = none) ∧
      ∃ results, (x.runBatch true c [second, first] s).1 = .ok results ∧
        results.map (fun r => (r.success, r.skipped)) = [(true, true), (true, false)] ∧
        (x.runBatch true c [first, second] s).2 = (x.runBatch true c [second, first] s).2 := by
  intro first second x c s
  have hr : ∀ a ∈ [second, first], a.Ranked := by
    simp [first, second, Action.Ranked, Action.rank, Data.number?]
  have htime : [second, first].all fun a => (x.guardFault? a).isNone := by decide +kernel
  have ht : ∀ a ∈ [second, first], x.guardFault? a = none := fun a ha =>
    Option.isNone_iff_eq_none.1 (List.all_eq_true.1 htime a ha)
  obtain ⟨turns, results, -, hrun, -, -, -, hperm⟩ :=
    runBatch_isolates x true c [second, first] s hr ht
  obtain ⟨results', hrun', -⟩ := hperm [first, second] (List.Perm.swap _ _ _)
    (by simp [first, second, Action.rank, Data.number?])
  have heval : (x.runBatch true c [second, first] s).1.toOption.map
      (·.map fun r => (r.success, r.skipped)) = some [(true, true), (true, false)] := by
    decide +kernel
  refine ⟨hr, ht, results, congrArg Prod.fst hrun, ?_, by rw [hrun, hrun']⟩
  rw [hrun] at heval
  exact Option.some_inj.1 heval

end Executor

end Rulebook
