/-
  The algebra of conditions.

  A condition comes to true, to false or to nothing.  It comes to nothing if there is no test of
  its name, if its field cannot be read, or if the test faults.  Turning a condition round swaps
  true and false and leaves nothing as it is, and then neither side holds; so a test that denies
  another one and the other one turned round agree in all three cases.  All this is so of tests that
  do not look at which way round a condition is.

  * `outcome_eq_none_iff`: when a condition comes to nothing;
  * `holds_of_denies`, `holds_between`: the tests that are put together from others;
  * `Combination.holds_iff`: what several conditions come to;
  * `condition_laws`: all of it;
  * `negation_seen`: a test that does look.
-/
import Rulebook.Condition
import Mathlib.Data.List.Perm.Basic

namespace Rulebook

/-! ## Tests that leave things alone -/

/-- A test that comes to a result, or faults, and leaves the surroundings as they are. -/
def Test.Quiet (test : Test) : Prop :=
  ∀ c context v s, (∃ b, test c context v s = .ok b s) ∨ ∃ f, test c context v s = .error f s

/-- A test that does not look at which way round a condition is. -/
def Test.Evenhanded (test : Test) : Prop :=
  ∀ c context v s negate, test { c with negate } context v s = test c context v s

/-- All tests of some names leave the surroundings as they are. -/
def Tests.Quiet (tests : Tests) : Prop :=
  ∀ name test, tests.lookup name = some test → test.Quiet

theorem Test.comparing_apply (f : Text.CharNames → Data → Data → Except Fault Bool) (c : Condition)
    (context : Context) (v : Value) (s : Surroundings) :
    Test.comparing f c context v s =
      match f s.charNames (s.heap.plain v) c.value with
      | .ok b => .ok b s
      | .error e => .error e s := by
  change (ofExcept (f s.charNames (s.heap.plain v) c.value) : EStateM Fault Surroundings Bool) s = _
  cases f s.charNames (s.heap.plain v) c.value <;> rfl

theorem Test.comparing_quiet (f : Text.CharNames → Data → Data → Except Fault Bool) :
    (Test.comparing f).Quiet := fun c context v s => by
  rw [comparing_apply]
  cases f s.charNames (s.heap.plain v) c.value with
  | ok b => exact .inl ⟨b, rfl⟩
  | error e => exact .inr ⟨e, rfl⟩

theorem Test.comparing_evenhanded (f : Text.CharNames → Data → Data → Except Fault Bool) :
    (Test.comparing f).Evenhanded :=
  fun _ _ _ _ _ => rfl

/-- The standard tests are comparisons. -/
theorem standardTests_comparing {name : String} {test : Test}
    (h : standardTests.lookup name = some test) : ∃ f, test = Test.comparing f := by
  have hall : ∀ e ∈ standardTests, ∃ f, e.2 = Test.comparing f := by
    simp only [standardTests, List.forall_mem_cons]
    refine ⟨?_, ?_, ?_, ?_, ?_, ?_, ?_, ?_, ?_, ?_, ?_, ?_, ?_, ?_, ?_, ?_, List.forall_mem_nil _⟩
    all_goals exact ⟨_, rfl⟩
  obtain ⟨before, after, hlist, -⟩ := List.lookup_eq_some_iff.1 h
  exact hall (name, test) (hlist ▸ by simp)

theorem standardTests_quiet : standardTests.Quiet := fun _ _ h => by
  obtain ⟨f, rfl⟩ := standardTests_comparing h
  exact Test.comparing_quiet f

namespace Condition

variable {tests : Tests} {c : Condition} {context : Context} {s : Surroundings}

/-! ## Conditions that come to nothing -/

/-- A condition turned round. -/
def opposite (c : Condition) : Condition :=
  { c with negate := !c.negate }

/-- Why a condition comes to neither true nor false. -/
inductive Undecided (tests : Tests) (c : Condition) (context : Context) (s : Surroundings) : Prop
  | unknown : tests.lookup c.operator = none → Undecided tests c context s
  | unread {f : Fault} : fieldValue context s.heap c.field = .error f → Undecided tests c context s
  | faulty {test : Test} {v : Value} {f : Fault} {s' : Surroundings} :
      tests.lookup c.operator = some test → fieldValue context s.heap c.field = .ok v →
      test c context v s = .error f s' → Undecided tests c context s

/-- What a condition comes to whose test is known and whose field can be read. -/
theorem outcome_of_test {test : Test} {v : Value} (ht : tests.lookup c.operator = some test)
    (hv : fieldValue context s.heap c.field = .ok v) :
    c.outcome tests context s =
      match test c context v s with
      | .ok b s' => (some b, s')
      | .error _ s' => (none, s') := by
  cases htest : test c context v s <;> simp only [outcome, ht, hv, htest]

/-- A condition comes to nothing exactly if there is a reason. -/
theorem outcome_eq_none_iff :
    (c.outcome tests context s).1 = none ↔ Undecided tests c context s := by
  constructor
  · intro hnone
    cases ht : tests.lookup c.operator with
    | none => exact .unknown ht
    | some test =>
      cases hv : fieldValue context s.heap c.field with
      | error f => exact .unread hv
      | ok v =>
        rw [outcome_of_test ht hv] at hnone
        cases hr : test c context v s with
        | error f s' => exact .faulty ht hv hr
        | ok b s' => rw [hr] at hnone; cases hnone
  · rintro (ht | hv | ⟨ht, hv, hr⟩)
    · simp only [outcome, ht]
    · unfold outcome
      rw [hv]
      cases tests.lookup c.operator <;> rfl
    · rw [outcome_of_test ht hv, hr]

/-- A condition holds if it comes to what is asked for. -/
theorem holds_fst (tests : Tests) (c : Condition) (context : Context) (s : Surroundings) :
    (c.holds tests context s).1 = c.verdict (c.outcome tests context s).1 :=
  rfl

/-- An evenhanded test has the same outcome for both sides of a condition. -/
theorem outcome_opposite {test : Test} (ht : tests.lookup c.operator = some test)
    (heven : test.Evenhanded) :
    c.opposite.outcome tests context s = c.outcome tests context s := by
  have hsame (v : Value) : test c.opposite context v s = test c context v s :=
    heven c context v s _
  unfold outcome
  rw [show c.opposite.operator = c.operator from rfl, show c.opposite.field = c.field from rfl, ht]
  dsimp only
  cases fieldValue context s.heap c.field with
  | error f => rfl
  | ok v => simp only [hsame]

/-- What is asked of the test of a condition: that it is evenhanded, if there is one. -/
def Even (tests : Tests) (c : Condition) : Prop :=
  ∀ test, tests.lookup c.operator = some test → test.Evenhanded

theorem even_standard (c : Condition) : c.Even standardTests := fun _ ht => by
  obtain ⟨f, rfl⟩ := standardTests_comparing ht
  exact Test.comparing_evenhanded f

theorem holds_opposite (heven : c.Even tests) :
    (c.opposite.holds tests context s).1 =
      (!(c.holds tests context s).1 && (c.outcome tests context s).1.isSome) := by
  have hsame : (c.opposite.outcome tests context s).1 = (c.outcome tests context s).1 := by
    cases ht : tests.lookup c.operator with
    | none =>
      rw [outcome_eq_none_iff.2 (.unknown ht)]
      exact outcome_eq_none_iff.2 (.unknown ht)
    | some test => rw [outcome_opposite ht (heven test ht)]
  rw [holds_fst, holds_fst, hsame]
  cases (c.outcome tests context s).1 with
  | none => rfl
  | some b => cases b <;> cases hn : c.negate <;> simp [verdict, opposite, hn]

/-- At most one side of a condition holds. -/
theorem not_holds_both (heven : c.Even tests) :
    ¬((c.holds tests context s).1 = true ∧ (c.opposite.holds tests context s).1 = true) := by
  rw [holds_opposite heven]
  rintro ⟨one, other⟩
  rw [one] at other
  cases other

/-- Neither side of a condition holds exactly if it comes to nothing. -/
theorem holds_neither_iff (heven : c.Even tests) :
    ((c.holds tests context s).1 = false ∧ (c.opposite.holds tests context s).1 = false) ↔
      Undecided tests c context s := by
  rw [holds_opposite heven, ← outcome_eq_none_iff, holds_fst]
  cases (c.outcome tests context s).1 with
  | none => simp [verdict]
  | some b => simp [verdict]

/-! ## Tests that deny others -/

/-- Tests and those that they deny, by name. -/
def denials : List (String × String) :=
  [("not_equals", "equals"), ("not_contains", "contains"), ("not_in", "in"),
    ("is_not_null", "is_null")]

/-- A condition with a comparison that denies another one holds as one with the other comparison
    does that is turned round. -/
theorem holds_of_denies {f g : Text.CharNames → Data → Data → Except Fault Bool} {turned : Condition}
    (denies : ∀ names field value, f names field value = (g names field value).map (!·))
    (ht : tests.lookup c.operator = some (.comparing f))
    (hturned : tests.lookup turned.operator = some (.comparing g)) (hfield : turned.field = c.field)
    (hvalue : turned.value = c.value) (hnegate : turned.negate = !c.negate) :
    c.holds tests context s = turned.holds tests context s := by
  cases hv : fieldValue context s.heap c.field with
  | error e =>
    have hv' : fieldValue context s.heap turned.field = .error e := hfield ▸ hv
    simp only [holds, outcome, ht, hturned, hv, hv']
    rfl
  | ok v =>
    have hv' : fieldValue context s.heap turned.field = .ok v := hfield ▸ hv
    simp only [holds, outcome_of_test ht hv, outcome_of_test hturned hv',
      Test.comparing_apply, denies, hvalue]
    cases g s.charNames (s.heap.plain v) c.value with
    | error e => rfl
    | ok b => cases b <;> cases hn : c.negate <;> simp [verdict, Except.map, hn, hnegate]

/-- Each test that denies another one is the other one turned round. -/
theorem holds_denial (names : String × String) (hn : names ∈ denials) (c : Condition)
    (context : Context) (s : Surroundings) :
    { c with operator := names.1 }.holds standardTests context s =
      { c with operator := names.2 }.opposite.holds standardTests context s := by
  simp only [denials, List.mem_cons, List.not_mem_nil, or_false] at hn
  rcases hn with rfl | rfl | rfl | rfl <;>
    exact holds_of_denies (fun _ _ _ => rfl) rfl rfl rfl rfl rfl

/-! ## Between two numbers -/

/-- A result that is there and true. -/
def yields (r : Except Fault Bool) : Bool :=
  r.toOption.getD false

/-- A comparison by number is true where both sides have numbers that compare. -/
theorem yields_byNumber (test : Float → Float → Bool) (field value : Data) :
    yields (byNumber test field value) =
      match field.numeric?, value.numeric? with
      | .ok (some x), .ok (some y) => test x y
      | _, _ => false := by
  unfold byNumber
  rcases field.numeric? with f | ⟨⟩ | x <;> rcases value.numeric? with g | ⟨⟩ | y <;> rfl

/-- Lying between two numbers is true where all three have numbers and these are in order. -/
theorem yields_between {value : Data} {low high : Data} (hv : listed? value = some [low, high])
    (field : Data) :
    yields (between field value) =
      match field.numeric?, low.numeric?, high.numeric? with
      | .ok (some x), .ok (some a), .ok (some b) => a ≤ x && x ≤ b
      | _, _, _ => false := by
  simp only [between, hv]
  rcases field.numeric? with f | ⟨⟩ | x <;> rcases low.numeric? with f | ⟨⟩ | a <;>
    rcases high.numeric? with f | ⟨⟩ | b <;> rfl

/-- A number lies between two others if it is at least the one and at most the other, whatever of
    the three is no number or faults. -/
theorem yields_between_eq {value : Data} {low high : Data} (hv : listed? value = some [low, high])
    (field : Data) :
    yields (between field value) =
      (yields (byNumber (fun x y => x ≥ y) field low) &&
        yields (byNumber (fun x y => x ≤ y) field high)) := by
  rw [yields_between hv, yields_byNumber, yields_byNumber]
  rcases field.numeric? with f | ⟨⟩ | x
  · rfl
  · rfl
  · rcases low.numeric? with f | ⟨⟩ | a
    · rfl
    · rfl
    · rcases high.numeric? with f | ⟨⟩ | b
      · exact (Bool.and_false _).symm
      · exact (Bool.and_false _).symm
      · rfl

/-- What a condition that is not turned round comes to, by a comparison of its field and value. -/
theorem holds_named (c : Condition) (hn : c.negate = false) (name : String) (value : Data)
    (test : Data → Data → Except Fault Bool)
    (ht : tests.lookup name = some (Test.comparing fun _ => test)) (context : Context)
    (s : Surroundings) :
    ({ c with operator := name, value := value }.holds tests context s).1 =
      match fieldValue context s.heap c.field with
      | .ok v => yields (test (s.heap.plain v) value)
      | .error _ => false := by
  cases hv : fieldValue context s.heap c.field with
  | error e =>
    rw [holds_fst,
      outcome_eq_none_iff.2 (.unread (c := { c with operator := name, value := value }) hv)]
    rfl
  | ok v =>
    rw [holds_fst,
      outcome_of_test (c := { c with operator := name, value := value }) ht hv,
      Test.comparing_apply]
    dsimp only
    cases test (s.heap.plain v) value with
    | error e => rfl
    | ok b => cases b <;> simp [verdict, hn, yields, Except.toOption]

/-- The condition that a field lies between two values is that it is at least the one and at most
    the other. -/
theorem holds_between (c : Condition) (hn : c.negate = false) {value low high : Data}
    (hv : listed? value = some [low, high]) (context : Context) (s : Surroundings) :
    ({ c with operator := "between", value := value }.holds standardTests context s).1 =
      (({ c with operator := "greater_than_or_equal", value := low }.holds standardTests context
          s).1 &&
        ({ c with operator := "less_than_or_equal", value := high }.holds standardTests context
          s).1) := by
  rw [holds_named c hn "between" value between rfl,
    holds_named c hn "greater_than_or_equal" low (byNumber fun x y => x ≥ y) rfl,
    holds_named c hn "less_than_or_equal" high (byNumber fun x y => x ≤ y) rfl]
  cases fieldValue context s.heap c.field with
  | error f => rfl
  | ok v => exact yields_between_eq hv (s.heap.plain v)

/-! ## Surroundings -/

/-- Quiet tests leave the surroundings as they are. -/
theorem outcome_snd (hquiet : tests.Quiet) : (c.outcome tests context s).2 = s := by
  cases ht : tests.lookup c.operator with
  | none => simp only [outcome, ht]
  | some test =>
    cases hv : fieldValue context s.heap c.field with
    | error f => simp only [outcome, ht, hv]
    | ok v =>
      rw [outcome_of_test ht hv]
      obtain ⟨b, hb⟩ | ⟨f, hf⟩ := hquiet _ _ ht c context v s
      · rw [hb]
      · rw [hf]

theorem holds_snd (hquiet : tests.Quiet) : (c.holds tests context s).2 = s :=
  outcome_snd hquiet

end Condition

/-! ## Several conditions -/

namespace Combination

open Condition

/-- Exactly one item of a list is as asked. -/
def One {α : Type} (P : α → Prop) (as : List α) : Prop :=
  ∃ before a after, as = before ++ a :: after ∧ P a ∧ ∀ b ∈ before ++ after, ¬P b

/-- What the name of a combination asks of the items of a list. -/
def Asks {α : Type} (name : Data) (P : α → Prop) (as : List α) : Prop :=
  match name with
  | .text "OR" => ∃ a ∈ as, P a
  | .text "XOR" => One P as
  | _ => ∀ a ∈ as, P a

/-- One result of a list is true if exactly one item is as asked. -/
theorem count_map_eq_one {α : Type} (f : α → Bool) (as : List α) :
    (as.map f).count true = 1 ↔ One (fun a => f a = true) as := by
  have alone (a : α) : as.filter f = [a] ↔ ∃ before after,
      as = before ++ a :: after ∧ f a = true ∧ ∀ b ∈ before ++ after, ¬f b = true := by
    simp only [List.filter_eq_cons_iff, List.filter_eq_nil_iff, List.forall_mem_append]
    constructor
    · rintro ⟨before, after, rfl, hb, ha, hc⟩; exact ⟨before, after, rfl, ha, hb, hc⟩
    · rintro ⟨before, after, rfl, ha, hb, hc⟩; exact ⟨before, after, rfl, hb, ha, hc⟩
  have count : (as.map f).count true = (as.filter f).length := by
    rw [List.count, List.countP_map, List.countP_eq_length_filter]
    congr 2
    funext a
    exact beq_true (f a)
  rw [count, List.length_eq_one_iff]
  constructor
  · rintro ⟨a, one⟩
    obtain ⟨before, after, at', ha, rest⟩ := (alone a).1 one
    exact ⟨before, a, after, at', ha, rest⟩
  · rintro ⟨before, a, after, at', ha, rest⟩
    exact ⟨a, (alone a).2 ⟨before, after, at', ha, rest⟩⟩

theorem joins_map_iff {α : Type} (name : Data) (f : α → Bool) (as : List α) :
    (ofData name).joins (as.map f) = true ↔ Asks name (fun a => f a = true) as := by
  unfold ofData Asks
  split
  · simp [joins]
  · rw [joins, beq_iff_eq]
    exact count_map_eq_one f as
  · simp [joins]

/-- Conditions hold together if there are none or their results, one after the other, are as the
    combination asks. -/
theorem holds_iff (name : Data) (tests : Tests) (cs : List Condition) (context : Context)
    (s : Surroundings) :
    ((ofData name).holds tests cs context s).1 = true ↔
      cs = [] ∨ Asks name (· = true) (results tests context cs s).1 := by
  have hjoins := joins_map_iff name id (results tests context cs s).1
  rw [List.map_id] at hjoins
  unfold holds
  cases cs with
  | nil => simp
  | cons c cs => simpa using hjoins

/-- Results of quiet tests are those on the surroundings as they are. -/
theorem results_eq {tests : Tests} (hquiet : tests.Quiet) (context : Context) (cs : List Condition)
    (s : Surroundings) :
    results tests context cs s = (cs.map fun c => (c.holds tests context s).1, s) := by
  induction cs with
  | nil => rfl
  | cons c cs ih => simp only [results, holds_snd hquiet, ih, List.map_cons]

theorem holds_eq {tests : Tests} (hquiet : tests.Quiet) (k : Combination) (cs : List Condition)
    (context : Context) (s : Surroundings) :
    k.holds tests cs context s =
      (cs.isEmpty || k.joins (cs.map fun c => (c.holds tests context s).1), s) := by
  unfold holds
  rw [results_eq hquiet]
  cases cs <;> rfl

/-- The order of conditions does not matter to quiet tests. -/
theorem holds_perm {tests : Tests} (hquiet : tests.Quiet) (k : Combination)
    {cs ds : List Condition} (p : cs.Perm ds) (context : Context) (s : Surroundings) :
    k.holds tests cs context s = k.holds tests ds context s := by
  have results := p.map fun c => (c.holds tests context s).1
  have joined : k.joins (cs.map fun c => (c.holds tests context s).1) =
      k.joins (ds.map fun c => (c.holds tests context s).1) := by
    cases k with
    | all => exact results.all_eq
    | any => exact results.any_eq
    | exactlyOne => simp only [joins, results.count_eq]
  rw [holds_eq hquiet, holds_eq hquiet, joined, p.isEmpty_eq]

end Combination

/-! ## All laws -/

/-- **Conditions obey the laws of their names.** A standard test that denies another one is the
    other one turned round, and to lie between two values is to be at least the one and at most the
    other, whatever the field and the values are and whatever faults.  Under a test that does not
    look at which way round a condition is, as no standard one does, at most one side of the
    condition holds, and neither does exactly if its test is unknown, its field cannot be read or its
    test faults.  Several conditions hold together exactly if there are none, or as many of them hold
    as the combination asks, each on what those before it left; under tests that leave the
    surroundings alone, as the standard ones do, in any order. -/
theorem condition_laws :
    (∀ names ∈ Condition.denials, ∀ (c : Condition) (context : Context) (s : Surroundings),
      { c with operator := names.1 }.holds standardTests context s =
        { c with operator := names.2, negate := !c.negate }.holds standardTests context s) ∧
    (∀ (c : Condition) (low high value : Data) (context : Context) (s : Surroundings),
      value = .list [low, high] ∨ value = .tuple [low, high] →
      ({ c with operator := "between", value := value, negate := false }.holds standardTests context
          s).1 =
        (({ c with operator := "greater_than_or_equal", value := low, negate := false }.holds
            standardTests context s).1 &&
          ({ c with operator := "less_than_or_equal", value := high, negate := false }.holds
            standardTests context s).1)) ∧
    (∀ (tests : Tests) (c : Condition) (context : Context) (s : Surroundings), c.Even tests →
      ¬((c.holds tests context s).1 = true ∧
          ({ c with negate := !c.negate }.holds tests context s).1 = true) ∧
        (((c.holds tests context s).1 = false ∧
            ({ c with negate := !c.negate }.holds tests context s).1 = false) ↔
          Condition.Undecided tests c context s)) ∧
    (∀ c : Condition, c.Even standardTests) ∧
    (∀ (name : Data) (tests : Tests) (cs : List Condition) (context : Context) (s : Surroundings),
      (((Combination.ofData name).holds tests cs context s).1 = true ↔
          cs = [] ∨ Combination.Asks name (· = true)
            (Combination.results tests context cs s).1) ∧
        (tests.Quiet →
          (Combination.results tests context cs s).1 =
              cs.map (fun c => (c.holds tests context s).1) ∧
            ∀ ds, cs.Perm ds → (Combination.ofData name).holds tests cs context s =
              (Combination.ofData name).holds tests ds context s)) ∧
    standardTests.Quiet := by
  refine ⟨Condition.holds_denial, ?_, ?_, Condition.even_standard, ?_, standardTests_quiet⟩
  · intro c low high value context s two
    have hv : Condition.listed? value = some [low, high] := by rcases two with rfl | rfl <;> rfl
    exact Condition.holds_between { c with negate := false } rfl hv context s
  · exact fun tests c context s heven =>
      ⟨Condition.not_holds_both heven, Condition.holds_neither_iff heven⟩
  · exact fun name tests cs context s =>
      ⟨Combination.holds_iff name tests cs context s, fun hquiet =>
        ⟨congrArg Prod.fst (Combination.results_eq hquiet context cs s), fun ds p =>
          Combination.holds_perm hquiet (Combination.ofData name) p context s⟩⟩

/-- **A test may look at which way round its condition is**, and then both sides hold. -/
theorem negation_seen :
    let tests := standardTests.register "unless_negated" fun c _ _ => pure !c.negate
    let c : Condition := { field := .text "userId", operator := "unless_negated" }
    let context : Context := ⟨.null, .null, .null, .null, .null, .null⟩
    let s : Surroundings :=
      { breakers := { settings := { recovery := 30.0 } }, clock := fun _ => 0.0, replies := [] }
    (c.holds tests context s).1 = true ∧
      ({ c with negate := !c.negate }.holds tests context s).1 = true := by
  decide +kernel

end Rulebook
