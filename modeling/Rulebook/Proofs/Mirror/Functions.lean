/-
  Functions on mirrored heaps.

  A function sees its arguments as operators see their operands.  On their images, in a heap that
  mirrors the first one, it gives the image of its value, or the same fault.

  * `extreme_rename`, `inOrder_rename`: what is chosen or sorted by comparing plain values;
  * `total_alike`, `readJson_alike`: what makes new objects;
  * `pure?_alike`: calls of all functions but the log and the range.
-/
import Rulebook.Proofs.Mirror.Operators
import Rulebook.Proofs.Sorting
import Rulebook.Script.Functions

namespace Rulebook.Script.Function

open Heap (Mirrors)
open Heap.Mirrors (Both)

variable {ρ : Ref → Ref} {base h h' : Heap}

/-! ## Numbers -/

theorem bounded_rename (rounding : Parts → Int) (v : Value) :
    bounded rounding (v.rename ρ) = (bounded rounding v).map (Value.rename ρ) := by
  unfold bounded
  rw [Value.number?_rename, Value.typeName_rename]
  split
  · rfl
  · next x _ => cases Data.roundedFloat rounding x <;> rfl
  · rfl

theorem squareRoot_rename (v : Value) :
    squareRoot (v.rename ρ) = (squareRoot v).map (Value.rename ρ) := by
  unfold squareRoot
  rw [Value.number?_rename, Value.typeName_rename]
  split
  · next n _ =>
    cases n.toFloat with
    | error f => rfl
    | ok x =>
      dsimp only [bind, Except.bind]
      split <;> rfl
  · rfl

theorem magnitude_rename (v : Value) :
    magnitude (v.rename ρ) = (magnitude v).map (Value.rename ρ) := by
  cases v
  case bool | int | float => exact congrArg Except.ok (Value.rename_ofNumber ρ _).symm
  all_goals rfl

/-! ## Items -/

section

variable (m : Mirrors ρ base h h')

include m

theorem itemsOf_rename (v : Value) :
    itemsOf h' (v.rename ρ) = (itemsOf h v).map (List.map (Value.rename ρ)) := by
  unfold itemsOf
  rw [Operator.items?_rename m, Value.typeName_rename]
  cases Operator.items? h v <;> rfl

theorem size_rename (v : Value) : size h' (v.rename ρ) = (size h v).map (Value.rename ρ) := by
  have hcounted (n : Nat) :
      (if Word.largest < n then .error .indexSizedInteger else .ok (.int n) : Except Fault Value) =
        (if Word.largest < n then .error .indexSizedInteger else .ok (.int n) :
          Except Fault Value).map (Value.rename ρ) := by
    split <;> rfl
  have hitems := Operator.items?_rename m v
  unfold size
  cases v
  case text s => exact hcounted s.length
  all_goals
    dsimp only [Value.rename] at hitems ⊢
    rw [hitems]
    cases Operator.items? h _ with
    | none => rfl
    | some vs =>
      simp only [Option.map_some, List.length_map]
      exact hcounted vs.length

variable (hρ : Function.Injective ρ)

include hρ

omit m hρ in
theorem extreme_cons_cons (c : Data.Comparison) (name : String) (v w : Value) (vs : List Value) :
    extreme h c name (v :: w :: vs) =
      h.compareBy c w v >>= fun beats =>
        extreme h c name ((if beats then w else v) :: vs) := by
  simp only [extreme, List.foldlM_cons, bind_assoc, pure_bind]

theorem extreme_rename (c : Data.Comparison) (name : String) (vs : List Value) :
    extreme h' c name (vs.map (Value.rename ρ)) =
      (extreme h c name vs).map (Value.rename ρ) := by
  cases vs with
  | nil => rfl
  | cons v vs =>
    induction vs generalizing v with
    | nil => rfl
    | cons w vs ih =>
      rw [List.map_cons, List.map_cons, extreme_cons_cons, extreme_cons_cons, m.compareBy hρ]
      rcases h.compareBy c w v with f | (_ | _)
      · rfl
      · exact ih v
      · exact ih w

theorem extremeOf_rename (c : Data.Comparison) (name : String) (vs : List Value) :
    extremeOf h' c name (vs.map (Value.rename ρ)) =
      (extremeOf h c name vs).map (Value.rename ρ) := by
  rcases vs with - | ⟨v, - | ⟨w, vs⟩⟩
  · rfl
  · simp only [List.map_cons, List.map_nil, extremeOf, itemsOf_rename m]
    cases itemsOf h v with
    | error f => rfl
    | ok ws => exact extreme_rename m hρ c name ws
  · exact extreme_rename m hρ c name (v :: w :: vs)

theorem inOrder_rename (vs : List Value) :
    inOrder h' (vs.map (Value.rename ρ)) = (inOrder h vs).map (List.map (Value.rename ρ)) :=
  Sorting.sort_map (fun v w => m.compareBy hρ .lt v w) vs

theorem toText_rename (vs : List Value) :
    toText h' (vs.map (Value.rename ρ)) = (toText h vs).map (Value.rename ρ) := by
  rcases vs with - | ⟨v, - | ⟨e, options⟩⟩
  · rfl
  · simp only [List.map_cons, List.map_nil, toText, m.asText hρ]
    cases h.asText v <;> rfl
  · simp only [List.map_cons, toText, List.length_cons, List.length_map, Value.typeName_rename]
    split
    · rfl
    · rcases options with - | ⟨f, options⟩
      · cases e <;> rfl
      · cases e
        case text s => cases f <;> rfl
        all_goals rfl

/-! ## Calls -/

theorem total_alike {start : Value} (vs : List Value) :
    Alike (Both ρ base) (total h start vs)
      (total h' (start.rename ρ) (vs.map (Value.rename ρ))) := by
  unfold total
  induction vs generalizing h h' start with
  | nil => exact ⟨rfl, m⟩
  | cons v vs ih =>
    rw [List.map_cons, List.foldlM_cons, List.foldlM_cons]
    refine (Operator.binary_alike hρ m .add start v).bind ?_
    rintro ⟨u, g⟩ ⟨_, g'⟩ ⟨rfl, m'⟩
    exact ih m'

theorem readJson_alike (v : Value) :
    Alike (Both ρ base) (readJson h v) (readJson h' (v.rename ρ)) := by
  cases v
  case text s => exact (Alike.refl (Json.read s)).map fun d d' hd => hd ▸ m.load hρ d
  all_goals rfl

theorem listed_alike {r r' : Except Fault (List Value)}
    (hr : r' = r.map (List.map (Value.rename ρ))) :
    Alike (Both ρ base) (listed h r) (listed h' r') := by
  subst hr
  cases r with
  | error f => rfl
  | ok vs => exact m.newList hρ vs

omit hρ in
theorem alone_scalar_alike {α : Type} {r : Except Fault α} {f : α → Value}
    (hf : ∀ a, (f a).rename ρ = f a) :
    Alike (Both ρ base) (alone h (r.map f)) (alone h' (r.map f)) := by
  cases r with
  | error f => rfl
  | ok a => exact ⟨(hf a).symm, m⟩

omit hρ in
/-- A test of all or of some items. -/
theorem tested_alike {v : Value} {test test' : List Value → Bool}
    (htest : ∀ ws, test' (ws.map (Value.rename ρ)) = test ws) :
    Alike (Both ρ base) (alone h ((itemsOf h v).map fun ws => .bool (test ws)))
      (alone h' ((itemsOf h' (v.rename ρ)).map fun ws => .bool (test' ws))) := by
  rw [itemsOf_rename m]
  cases itemsOf h v with
  | error f => rfl
  | ok ws => exact ⟨congrArg Value.bool (htest ws), m⟩

theorem summed_alike {v start : Value} :
    Alike (Both ρ base) (do total h start (← itemsOf h v))
      (do total h' (start.rename ρ) (← itemsOf h' (v.rename ρ))) := by
  rw [itemsOf_rename m]
  cases itemsOf h v with
  | error f => rfl
  | ok ws => exact total_alike m hρ ws

/-- A function from outside is given the same data. -/
theorem fromHost_alike (read : List Data → Except Fault Data) (vs : List Value) :
    Alike (Both ρ base) (fromHost h (read (vs.map h.plain)))
      (fromHost h' (read ((vs.map (Value.rename ρ)).map h'.plain))) := by
  have hplain : (vs.map (Value.rename ρ)).map h'.plain = vs.map h.plain := by
    rw [List.map_map]
    exact List.map_congr_left fun v _ => m.plain hρ v
  rw [hplain]
  exact (Alike.refl (read (vs.map h.plain))).map fun d d' hd => hd ▸ m.load hρ d

/-- **A call on images gives the image of its value**, or the same fault. -/
theorem pure?_alike (f : Function) (vs : List Value) :
    Alike (Both ρ base) (pure? h f vs) (pure? h' f (vs.map (Value.rename ρ))) := by
  have hplain (v : Value) : h'.plain (v.rename ρ) = h.plain v := m.plain hρ v
  unfold pure?
  rw [List.length_map]
  rcases vs with - | ⟨v, - | ⟨w, - | ⟨u, vs⟩⟩⟩
  · cases f
    case bool | float | int | str | range | log => exact ⟨rfl, m⟩
    case list => exact m.newList hρ []
    case host read => exact fromHost_alike m hρ read []
    all_goals rfl
  · cases f
    case host read => exact fromHost_alike m hρ read [v]
    case abs => exact Operator.alone_alike m (magnitude_rename v)
    case all =>
      refine tested_alike m fun ws => ?_
      simp only [List.all_map, Function.comp_def, m.truth]
    case any =>
      refine tested_alike m fun ws => ?_
      simp only [List.any_map, Function.comp_def, m.truth]
    case bool => exact ⟨congrArg Value.bool (m.truth v), m⟩
    case ceil | floor => exact Operator.alone_alike m (bounded_rename _ v)
    case len => exact Operator.alone_alike m (size_rename m v)
    case sqrt => exact Operator.alone_alike m (squareRoot_rename v)
    case max | min => exact Operator.alone_alike m (extremeOf_rename m hρ _ _ [v])
    case str => exact Operator.alone_alike m (toText_rename m hρ [v])
    case list => exact listed_alike m hρ (itemsOf_rename m v)
    case sorted =>
      refine listed_alike m hρ ?_
      rw [itemsOf_rename m]
      cases itemsOf h v with
      | error f => rfl
      | ok ws => exact inOrder_rename m hρ ws
    case sum => exact summed_alike m hρ
    case fromJson => exact readJson_alike m hρ v
    case float | int | toJson =>
      simp only [List.map_cons, List.map_nil, hplain]
      exact alone_scalar_alike m fun _ => rfl
    case round =>
      simp only [List.map_cons, List.map_nil, hplain]
      exact alone_scalar_alike m fun n => Value.rename_ofNumber ρ n
    case range | log => exact ⟨rfl, m⟩
  · cases f
    case host read => exact fromHost_alike m hρ read [v, w]
    case int =>
      simp only [List.map_cons, List.map_nil, hplain]
      exact alone_scalar_alike m fun _ => rfl
    case round =>
      have hrounded (places : Option Data) :
          Alike (Both ρ base) (alone h (((h.plain v).rounded places).map Value.ofNumber))
            (alone h' (((h.plain v).rounded places).map Value.ofNumber)) :=
        alone_scalar_alike m fun n => Value.rename_ofNumber ρ n
      have hw := hplain w
      cases w
      all_goals
        simp only [Value.rename] at hw
        simp only [List.map_cons, List.map_nil, Value.rename, hplain, hw]
        exact hrounded _
    case max | min => exact Operator.alone_alike m (extremeOf_rename m hρ _ _ [v, w])
    case sum =>
      cases w
      case text s =>
        simp only [List.map_cons, List.map_nil, Value.rename, itemsOf_rename m]
        cases itemsOf h v <;> rfl
      all_goals exact summed_alike m hρ
    case str => exact Operator.alone_alike m (toText_rename m hρ [v, w])
    case range | log => exact ⟨rfl, m⟩
    all_goals rfl
  · cases f
    case host read => exact fromHost_alike m hρ read (v :: w :: u :: vs)
    case round => cases w <;> rfl
    case max | min => exact Operator.alone_alike m (extremeOf_rename m hρ _ _ (v :: w :: u :: vs))
    case str => exact Operator.alone_alike m (toText_rename m hρ (v :: w :: u :: vs))
    case range | log => exact ⟨rfl, m⟩
    all_goals rfl

end

end Rulebook.Script.Function
