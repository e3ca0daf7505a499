/-
  Operators on mirrored heaps.

  An operator sees what its operands are and which of them are the same, but not which references
  they have.  So on the images of its operands, in a heap that mirrors the first one, it gives the
  image of its value, or the same fault.

  * `Alike`: two operations with related results or with the same fault;
  * `Operator.binary_alike`, `Operator.compare_rename`, `Operator.subscript?_alike`,
    `Operator.assign_alike`: the operators of expressions and statements.
-/
import Mathlib.Data.Option.Basic
import Rulebook.Proofs.Mirror.Comparisons
import Rulebook.Script.Operators

namespace Rulebook

/-! ## Related results -/

section

variable {ε α β γ δ : Type} {R : α → β → Prop} {S : γ → δ → Prop}

/-- Two operations have related results, or fail with the same error. -/
def Alike (R : α → β → Prop) : Except ε α → Except ε β → Prop
  | .ok a, .ok b => R a b
  | .error e, .error e' => e = e'
  | _, _ => False

namespace Alike

theorem map {r : Except ε α} {r' : Except ε β} {f : α → γ} {g : β → δ} (h : Alike R r r')
    (hf : ∀ a b, R a b → S (f a) (g b)) : Alike S (r.map f) (r'.map g) := by
  cases r <;> cases r'
  · exact h
  · exact h.elim
  · exact h.elim
  · exact hf _ _ h

theorem bind {r : Except ε α} {r' : Except ε β} {f : α → Except ε γ} {g : β → Except ε δ}
    (h : Alike R r r') (hf : ∀ a b, R a b → Alike S (f a) (g b)) :
    Alike S (r >>= f) (r' >>= g) := by
  cases r <;> cases r'
  · exact h
  · exact h.elim
  · exact h.elim
  · exact hf _ _ h

/-- An operation is like itself. -/
theorem refl (r : Except ε α) : Alike Eq r r := by
  cases r <;> rfl

theorem of_eq_map {r : Except ε α} {r' : Except ε β} {f : α → β} (h : r' = r.map f)
    (hf : ∀ a, R a (f a)) : Alike R r r' := by
  subst h
  cases r
  · rfl
  · exact hf _

theorem ite {c : Prop} [Decidable c] {r s : Except ε α} {r' s' : Except ε β} (h : Alike R r r')
    (h' : Alike R s s') : Alike R (if c then r else s) (if c then r' else s') := by
  split
  · exact h
  · exact h'

end Alike

end

namespace Value

/-- A value has parts or refers to objects. -/
def Compound : Value → Prop
  | .tuple _ | .slice .. | .list _ | .mapping _ => True
  | _ => False

theorem rename_of_not_compound (ρ : Ref → Ref) {v : Value} (h : ¬v.Compound) : v.rename ρ = v := by
  cases v <;> first | rfl | exact absurd trivial h

theorem Compound.rename {v : Value} (h : v.Compound) (ρ : Ref → Ref) : (v.rename ρ).Compound := by
  cases v <;> first | exact trivial | exact h.elim

end Value

namespace Script.Operator

open Heap (Mirrors)
open Heap.Mirrors (Both)

variable {ρ : Ref → Ref} {base h h' : Heap}

/-! ## Times -/

theorem number?_of_compound {v : Value} (h : v.Compound) : v.number? = none := by
  cases v <;> first | rfl | exact h.elim

theorem onTimes_of_compound {op : BinaryOp} {v w : Value} (hvw : v.Compound ∨ w.Compound) :
    onTimes op v w = none := by
  unfold onTimes
  split
  all_goals rcases hvw with hvw | hvw
  all_goals first
    | rfl
    | exact hvw.elim
    | rw [number?_of_compound hvw]

/-- What comes of instants, spans and numbers refers to nothing. -/
theorem onTimes_result {op : BinaryOp} {v w : Value} {r : Except Fault Value}
    (hr : onTimes op v w = some r) : r.map (Value.rename ρ) = r := by
  have hspan (n : Int) : (span n).map (Value.rename ρ) = span n := by
    unfold span
    split <;> rfl
  have hmoved (t : Instant) (n : Int) : (moved t n).map (Value.rename ρ) = moved t n := by
    unfold moved
    dsimp only
    split <;> rfl
  have hscaled (d : Int) (x : Float) (inverse : Bool) :
      (scaled d x inverse).map (Value.rename ρ) = scaled d x inverse := by
    unfold scaled
    split
    · dsimp only
      generalize (if inverse = true then _ else _ : Nat × Nat) = ratio
      split_ifs
      · rfl
      · exact hspan _
    · rfl
    · rfl
  have hdivided (n m : Int) :
      ((Number.div (.int n) (.int m)).map Value.ofNumber).map (Value.rename ρ) =
        (Number.div (.int n) (.int m)).map Value.ofNumber := by
    cases Number.div (.int n) (.int m)
    · rfl
    · exact congrArg Except.ok (Value.rename_ofNumber ρ _)
  unfold onTimes at hr
  split at hr
  all_goals first | cases hr | (split at hr <;> cases hr)
  all_goals first
    | exact hspan _
    | exact hmoved _ _
    | exact hscaled _ _ _
    | exact hdivided _ _
    | (split <;> first | rfl | exact hspan _)

theorem onTimes_rename (op : BinaryOp) (v w : Value) :
    onTimes op (v.rename ρ) (w.rename ρ) = onTimes op v w := by
  by_cases hv : v.Compound
  · rw [onTimes_of_compound (.inl hv), onTimes_of_compound (.inl (hv.rename ρ))]
  · by_cases hw : w.Compound
    · rw [onTimes_of_compound (.inr hw), onTimes_of_compound (.inr (hw.rename ρ))]
    · rw [Value.rename_of_not_compound ρ hv, Value.rename_of_not_compound ρ hw]

/-! ## Sums, products and the other operators -/

theorem unsupported_rename (op : BinaryOp) (v w : Value) :
    unsupported op (v.rename ρ) (w.rename ρ) = unsupported op v w := by
  unfold unsupported
  rw [Value.typeName_rename, Value.typeName_rename]

section

variable (hρ : Function.Injective ρ) (m : Mirrors ρ base h h')

include m in
/-- A value without a new object. -/
theorem alone_alike {r r' : Except Fault Value} (h₀ : r' = r.map (Value.rename ρ)) :
    Alike (Both ρ base) (r.map fun v => (v, h)) (r'.map fun v => (v, h')) := by
  subst h₀
  cases r
  · rfl
  · exact ⟨rfl, m⟩

include m in
/-- A value that refers to nothing. -/
theorem scalar_alike {α : Type} {r : Except Fault α} {f : α → Value}
    (hf : ∀ a, (f a).rename ρ = f a) :
    Alike (Both ρ base) (r.map fun a => (f a, h)) (r.map fun a => (f a, h')) := by
  cases r
  · rfl
  · exact ⟨(hf _).symm, m⟩

include hρ m

theorem joined_alike (v w : Value) :
    Option.Rel (Alike (Both ρ base)) (joined h v w) (joined h' (v.rename ρ) (w.rename ρ)) := by
  have hsum (r s : Ref) :
      Both ρ base (h.newList (h.items r ++ h.items s))
        (h'.newList (h'.items (ρ r) ++ h'.items (ρ s))) := by
    rw [m.items r, m.items s, ← List.map_append]
    exact m.newList hρ _
  cases v with
  | text s =>
    cases w
    case text t => exact .some ⟨rfl, m⟩
    all_goals exact .some rfl
  | tuple vs =>
    cases w
    case tuple ws =>
      refine .some ⟨congrArg Value.tuple ?_, m⟩
      simp only [Value.renameAll_eq, List.map_append]
    all_goals exact .some rfl
  | list r =>
    cases w
    case list s => exact .some (hsum r s)
    all_goals exact .some rfl
  | _ => exact .none

theorem repeatSequence_alike (sequence count : Value) :
    Option.Rel (Alike (Both ρ base)) (repeatSequence h sequence count)
      (repeatSequence h' (sequence.rename ρ) (count.rename ρ)) := by
  have hrepeated (n : Nat) (vs : List Value) :
      repeated n (vs.map (Value.rename ρ)) = (repeated n vs).map (Value.rename ρ) := by
    simp only [repeated, List.map_flatten, List.map_replicate]
  unfold repeatSequence
  rw [Value.number?_rename, Value.typeName_rename]
  cases sequence with
  | text s =>
    refine .some ?_
    dsimp only
    split
    · exact .ite ⟨rfl, m⟩ rfl
    · rfl
  | tuple vs =>
    refine .some ?_
    dsimp only
    split
    · refine .ite ⟨congrArg Value.tuple ?_, m⟩ rfl
      simp only [Value.renameAll_eq, List.isEmpty_map, hrepeated]
    · rfl
  | list r =>
    refine .some ?_
    dsimp only
    split
    · refine .ite ?_ rfl
      rw [m.items r, List.isEmpty_map, hrepeated]
      exact m.newList hρ _
    · rfl
  | _ => exact .none

theorem onOthers_alike (op : BinaryOp) (v w : Value) :
    Alike (Both ρ base) (onOthers h op v w) (onOthers h' op (v.rename ρ) (w.rename ρ)) := by
  have horRefused {y y' : Option Yield} (hy : Option.Rel (Alike (Both ρ base)) y y') :
      Alike (Both ρ base) (y.getD (.error (unsupported op v w)))
        (y'.getD (.error (unsupported op v w))) := by
    cases hy with
    | some hy => exact hy
    | none => rfl
  unfold onOthers
  rw [onTimes_rename, unsupported_rename]
  split
  · next r hr => exact alone_alike m (onTimes_result hr).symm
  · cases op with
    | add => exact horRefused (joined_alike hρ m v w)
    | mul =>
      have hleft := repeatSequence_alike hρ m v w
      have hright := repeatSequence_alike hρ m w v
      dsimp only
      generalize repeatSequence h v w = y at hleft
      generalize repeatSequence h' (v.rename ρ) (w.rename ρ) = y' at hleft
      cases hleft with
      | some hleft => exact hleft
      | none => exact horRefused hright
    | mod =>
      cases v
      case text s =>
        dsimp only [Value.rename]
        rw [m.plain hρ]
        exact scalar_alike m fun _ => rfl
      all_goals rfl
    | _ => rfl

theorem binary_alike (op : BinaryOp) (v w : Value) :
    Alike (Both ρ base) (binary h op v w) (binary h' op (v.rename ρ) (w.rename ρ)) := by
  unfold binary
  rw [Value.number?_rename, Value.number?_rename, unsupported_rename]
  split
  · split
    · exact scalar_alike m fun n => Value.rename_ofNumber ρ n
    · rfl
  · exact onOthers_alike hρ m op v w

end

theorem signed_rename (op : UnaryOp) (v : Value) :
    signed op (v.rename ρ) = (signed op v).map (Value.rename ρ) := by
  cases v
  case bool | int | float => exact congrArg Except.ok (Value.rename_ofNumber ρ _).symm
  all_goals rfl

/-! ## Comparisons -/

theorem sameScalars_rename (ρ : Ref → Ref) (v w : Value) :
    ((v.rename ρ).typeName == (w.rename ρ).typeName &&
      ((v.rename ρ).plain fun _ => .null).equal ((w.rename ρ).plain fun _ => .null)) =
      (v.typeName == w.typeName && (v.plain fun _ => .null).equal (w.plain fun _ => .null)) := by
  rw [Value.typeName_rename, Value.typeName_rename, Value.plainNull_rename,
    Value.plainNull_rename]

section

variable (hρ : Function.Injective ρ)

include hρ

theorem beq_rename (r s : Ref) : (ρ r == ρ s) = (r == s) := by
  rw [Bool.eq_iff_iff, beq_iff_eq, beq_iff_eq, hρ.eq_iff]

theorem sameAll_rename (vs ws : List Value) :
    same.sameAll (vs.map (Value.rename ρ)) (ws.map (Value.rename ρ)) = same.sameAll vs ws := by
  induction vs generalizing ws with
  | nil => rfl
  | cons v vs ih =>
    cases ws with
    | nil => cases v <;> rfl
    | cons w ws =>
      have hscalars := sameScalars_rename ρ v w
      cases v
      case list r =>
        cases w
        case list s => exact congrArg₂ Bool.and (beq_rename hρ r s) (ih ws)
        all_goals exact congrArg₂ Bool.and hscalars (ih ws)
      case mapping r =>
        cases w
        case mapping s => exact congrArg₂ Bool.and (beq_rename hρ r s) (ih ws)
        all_goals exact congrArg₂ Bool.and hscalars (ih ws)
      all_goals exact congrArg₂ Bool.and hscalars (ih ws)

theorem same_rename (v w : Value) : same (v.rename ρ) (w.rename ρ) = same v w := by
  have hscalars := sameScalars_rename ρ v w
  cases v
  case list r =>
    cases w
    case list s => exact beq_rename hρ r s
    all_goals rfl
  case mapping r =>
    cases w
    case mapping s => exact beq_rename hρ r s
    all_goals rfl
  case tuple vs =>
    cases w
    case tuple ws =>
      simp only [Value.rename, Value.renameAll_eq, same, List.length_map, sameAll_rename hρ]
    all_goals exact hscalars
  all_goals exact hscalars

variable (m : Mirrors ρ base h h')

include m

theorem isAmong_rename (v : Value) (ws : List Value) :
    isAmong h' (v.rename ρ) (ws.map (Value.rename ρ)) = isAmong h v ws := by
  induction ws with
  | nil => rfl
  | cons w ws ih =>
    rw [List.map_cons, isAmong, isAmong, same_rename hρ, m.equal hρ, ih]

theorem contains_rename (container v : Value) :
    contains h' (container.rename ρ) (v.rename ρ) = contains h container v := by
  cases container
  case text s =>
    cases v
    case text t => rfl
    all_goals exact congrArg (fun t => Except.error (Fault.textMembership t)) rfl
  case list r => simp only [Value.rename, contains, m.items r, isAmong_rename hρ m]
  case tuple vs => simp only [Value.rename, Value.renameAll_eq, contains, isAmong_rename hρ m]
  case mapping r =>
    simp only [Value.rename, contains, Value.unhashable?_rename, m.entries r,
      Entries.get?_rename, Option.isSome_map]
  all_goals rfl

/-- **A comparison holds of the images just if it holds of the values.** -/
theorem compare_rename (op : CompareOp) (v w : Value) :
    compare h' op (v.rename ρ) (w.rename ρ) = compare h op v w := by
  unfold compare
  simp only [m.compareBy hρ, m.equal hρ, same_rename hρ, contains_rename hρ m]

end

/-! ## Subscripts -/

theorem sliceBound?_rename (v : Value) : sliceBound? (v.rename ρ) = sliceBound? v := by
  cases v <;> rfl

theorem sliceRange_rename (n : Nat) (start stop step : Value) :
    sliceRange n (start.rename ρ) (stop.rename ρ) (step.rename ρ) =
      sliceRange n start stop step := by
  unfold sliceRange
  simp only [sliceBound?_rename]

theorem index_rename (kind : Sequence) (key : Value) :
    index kind (key.rename ρ) = index kind key := by
  unfold index
  rw [Value.number?_rename, Value.typeName_rename]

theorem sliceItems_map {α β : Type} (g : α → β) (xs : List α) (start stop step : Int) :
    sliceItems (xs.map g) start stop step = (sliceItems xs start stop step).map g := by
  simp only [sliceItems, List.map_filterMap, List.getElem?_toArray, List.getElem?_map]

/-- An item of images is the image of the item. -/
theorem item_map {α β : Type} (g : α → β) (kind : Sequence) (xs : List α) (key : Value) :
    (do
      let n ← index kind (key.rename ρ)
      match (place? (xs.map g).length n).bind ((xs.map g)[·]?) with
      | some x => return .inl x
      | none => throw (.indexRange kind) : Except Fault (β ⊕ List β)) =
      Except.map (Sum.map g (List.map g)) (do
        let n ← index kind key
        match (place? xs.length n).bind (xs[·]?) with
        | some x => return .inl x
        | none => throw (.indexRange kind)) := by
  rw [index_rename, List.length_map]
  cases index kind key with
  | error f => rfl
  | ok n =>
    dsimp only [bind, Except.bind]
    cases place? xs.length n with
    | none => rfl
    | some i =>
      simp only [Option.bind_some, List.getElem?_map]
      cases xs[i]? <;> rfl

/-- A subscript of images is the image of the subscript. -/
theorem fromSequence_map {α β : Type} (g : α → β) (kind : Sequence) (xs : List α) (key : Value) :
    fromSequence kind (xs.map g) (key.rename ρ) =
      (fromSequence kind xs key).map (Sum.map g (List.map g)) := by
  cases key
  case slice start stop step =>
    simp only [fromSequence, Value.rename, List.length_map, sliceRange_rename]
    cases sliceRange xs.length start stop step with
    | error f => rfl
    | ok p =>
      have hitems := sliceItems_map g xs p.1 p.2.1 p.2.2
      exact congrArg (fun ys => Except.ok (Sum.inr ys)) hitems
  all_goals exact item_map g kind xs _

section

variable (hρ : Function.Injective ρ) (m : Mirrors ρ base h h')

include m

theorem items?_rename (v : Value) :
    items? h' (v.rename ρ) = (items? h v).map (List.map (Value.rename ρ)) := by
  cases v
  case list r => exact congrArg some (m.items r)
  case tuple vs => exact congrArg some (Value.renameAll_eq ρ vs)
  case mapping r =>
    simp only [Value.rename, items?, m.entries r, Entries.rename, List.map_map, Option.map_some]
    rfl
  case text s => simp only [Value.rename, items?, List.map_map, Option.map_some]; rfl
  all_goals rfl

include hρ

theorem subscript?_alike (container key : Value) :
    Option.Rel (Alike (Both ρ base)) (subscript? h container key)
      (subscript? h' (container.rename ρ) (key.rename ρ)) := by
  cases container
  case list r =>
    refine .some ?_
    rw [m.items r, fromSequence_map]
    cases fromSequence .list (h.items r) key with
    | error f => rfl
    | ok v =>
      cases v with
      | inl v => exact ⟨rfl, m⟩
      | inr vs => exact m.newList hρ vs
  case tuple vs =>
    refine .some ?_
    rw [Value.renameAll_eq, fromSequence_map]
    cases fromSequence .tuple vs key with
    | error f => rfl
    | ok v =>
      cases v with
      | inl v => exact ⟨rfl, m⟩
      | inr vs => exact ⟨congrArg Value.tuple (Value.renameAll_eq ρ vs).symm, m⟩
  case text s =>
    refine .some ?_
    have hkey := fromSequence_map (ρ := ρ) id .text s.toList key
    rw [List.map_id] at hkey
    rw [hkey]
    cases fromSequence .text s.toList key with
    | error f => rfl
    | ok c =>
      cases c with
      | inl c => exact ⟨rfl, m⟩
      | inr cs => exact ⟨by rw [Sum.map_inr, List.map_id]; rfl, m⟩
  case mapping r =>
    refine .some ?_
    rw [Value.unhashable?_rename, m.entries r, Entries.get?_rename, m.listing hρ]
    split
    · rfl
    · cases (h.entries r).get? key with
      | some v => exact ⟨rfl, m⟩
      | none => cases h.listing key <;> rfl
  all_goals exact .none

/-! ## Assignments -/

omit hρ m in
theorem replaceSlice_map {α β : Type} (g : α → β) (start step : Int) (ys : List α) (xs : List α)
    (i : Nat) : replaceSlice (xs.map g) start step i (ys.map g) =
      (replaceSlice xs start step i ys).map g := by
  induction ys generalizing xs i with
  | nil => rfl
  | cons y ys ih =>
    rw [List.map_cons, replaceSlice, replaceSlice, ← List.map_set]
    exact ih _ _

omit hρ m in
/-- An item of images is replaced as the item is. -/
theorem assignItem_rename (vs : List Value) (key v : Value) :
    (do
      let n ← index .list (key.rename ρ)
      match place? (vs.map (Value.rename ρ)).length n with
      | some i => return replaceAt (vs.map (Value.rename ρ)) i (v.rename ρ)
      | none => throw .assignmentRange : Except Fault (List Value)) =
      Except.map (List.map (Value.rename ρ)) (do
        let n ← index .list key
        match place? vs.length n with
        | some i => return replaceAt vs i v
        | none => throw .assignmentRange) := by
  rw [index_rename, List.length_map]
  cases index .list key with
  | error f => rfl
  | ok n =>
    dsimp only [bind, Except.bind]
    cases place? vs.length n with
    | none => rfl
    | some i => exact congrArg Except.ok List.map_set.symm

omit hρ in
theorem assignInList_rename (vs : List Value) (key v : Value) :
    assignInList h' (vs.map (Value.rename ρ)) (key.rename ρ) (v.rename ρ) =
      (assignInList h vs key v).map (List.map (Value.rename ρ)) := by
  cases key
  case slice start stop step =>
    simp only [assignInList, Value.rename, List.length_map, sliceRange_rename, items?_rename m]
    cases sliceRange vs.length start stop step with
    | error f => rfl
    | ok p =>
      dsimp only [bind, Except.bind]
      cases items? h v with
      | none => split <;> rfl
      | some ws =>
        simp only [Option.map_some, List.length_map]
        split
        · simp only [← List.map_take, ← List.map_drop, ← List.map_append]
          rfl
        · split
          · rw [replaceSlice_map]
            rfl
          · rfl
  all_goals exact assignItem_rename vs _ v

/-- **Assigning images changes the image of the heap.** -/
theorem assign_alike (container key v : Value) :
    Alike (Mirrors ρ base) (assign h container key v)
      (assign h' (container.rename ρ) (key.rename ρ) (v.rename ρ)) := by
  cases container
  case mapping r =>
    simp only [Value.rename, assign, Value.unhashable?_rename]
    split
    · rfl
    · rw [m.entries r, Entries.insert_rename]
      exact m.write hρ r (.mapping _)
  case list r =>
    simp only [Value.rename, assign, m.items r, assignInList_rename m]
    cases assignInList h (h.items r) key v with
    | error f => rfl
    | ok vs =>
      have hwrite := m.write hρ r (.list vs)
      rw [Cell.rename, Value.renameAll_eq] at hwrite
      exact hwrite
  all_goals rfl

end

end Script.Operator

end Rulebook
