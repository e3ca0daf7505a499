/-
  The kinds of faults of operations on data.

  An operation that has no result names a fault.  What becomes of the fault depends on its kind, so
  for every operation the kinds are given that its faults can have (`FaultsIn`); a listing has one
  fault only (`Unlistable`).

  * `Number.faultsIn_toFloat`, …, `Number.faultsIn_pow`: numbers;
  * `Data.unlistable_listing`, `Data.faultsIn_compareBy`, `Data.faultsIn_toWhole`: data;
  * `Data.Percent.faultsIn_format`: texts with directives;
  * `Json.faultsIn_write`, `Json.faultsIn_read`: JSON texts.
-/
import Mathlib.Tactic.SplitIfs
import Rulebook.Data.Conversion
import Rulebook.Data.Percent
import Rulebook.Json.Reader
import Rulebook.Json.Writer

namespace Rulebook

variable {α β : Type} {ks ls : List FaultKind}

/-- An operation has a result, or a fault with a property. -/
def FaultsAre (P : Fault → Prop) (r : Except Fault α) : Prop :=
  ∀ f, r = .error f → P f

namespace FaultsAre

variable {P Q : Fault → Prop}

theorem ok (a : α) : FaultsAre P (.ok a : Except Fault α) :=
  nofun

theorem of_error {f : Fault} (h : P f) : FaultsAre P (.error f : Except Fault α) := fun g hg => by
  cases hg
  exact h

theorem imp {r : Except Fault α} (h : FaultsAre P r) (hPQ : ∀ f, P f → Q f) : FaultsAre Q r :=
  fun f hf => hPQ f (h f hf)

theorem map {r : Except Fault α} (h : FaultsAre P r) (g : α → β) : FaultsAre P (r.map g) := by
  cases r with
  | ok a => exact ok _
  | error f => exact of_error (h f rfl)

theorem bind {r : Except Fault α} {g : α → Except Fault β} (h : FaultsAre P r)
    (hg : ∀ a, FaultsAre P (g a)) : FaultsAre P (r >>= g) := by
  cases r with
  | ok a => exact hg a
  | error f => exact of_error (h f rfl)

theorem ite {c : Prop} [Decidable c] {r r' : Except Fault α} (h : FaultsAre P r)
    (h' : FaultsAre P r') : FaultsAre P (if c then r else r') := by
  split
  · exact h
  · exact h'

theorem mapM {f : α → Except Fault β} (h : ∀ a, FaultsAre P (f a)) (l : List α) :
    FaultsAre P (l.mapM f) := by
  induction l with
  | nil => exact ok _
  | cons a l ih =>
    rw [List.mapM_cons]
    exact (h a).bind fun b => ih.bind fun bs => ok _

theorem foldlM {f : β → α → Except Fault β} (h : ∀ b a, FaultsAre P (f b a)) (l : List α) (b : β) :
    FaultsAre P (l.foldlM f b) := by
  induction l generalizing b with
  | nil => exact ok _
  | cons a l ih =>
    rw [List.foldlM_cons]
    exact (h b a).bind ih

/-! Faults of some kinds. -/

theorem error {f : Fault} (h : ks.contains f.kind = true) :
    FaultsAre (fun f => f.kind ∈ ks) (.error f : Except Fault α) :=
  of_error (by simpa using h)

theorem throw {f : Fault} (h : ks.contains f.kind = true) :
    FaultsAre (fun f => f.kind ∈ ks) (throw f : Except Fault α) :=
  error h

theorem mono {r : Except Fault α} (h : FaultsAre (fun f => f.kind ∈ ks) r) (hks : ks ⊆ ls) :
    FaultsAre (fun f => f.kind ∈ ls) r :=
  h.imp fun _ hf => hks hf

/-! Faults of some kinds, or others that are not expected. -/

theorem expected {f : Fault} (h : ks.contains f.kind = true) :
    FaultsAre (fun f => f.kind ∈ ks ∨ P f) (.error f : Except Fault α) :=
  of_error (.inl (by simpa using h))

theorem orOthers {r : Except Fault α} (h : FaultsAre (fun f => f.kind ∈ ks) r) (hks : ks ⊆ ls) :
    FaultsAre (fun f => f.kind ∈ ls ∨ P f) r :=
  h.imp fun _ hf => .inl (hks hf)

end FaultsAre

/-- An operation has a result, or its fault is of one of some kinds. -/
def FaultsIn (ks : List FaultKind) (r : Except Fault α) : Prop :=
  FaultsAre (fun f => f.kind ∈ ks) r

/-! ## Numbers -/

namespace Number

theorem faultsIn_toFloat (a : Number) : FaultsIn [.overflow] a.toFloat := by
  unfold toFloat
  split
  · split
    · exact .ok _
    · exact .error rfl
  · exact .ok _

theorem faultsIn_onFloats {f : Float → Float → Except Fault Number}
    (hks : FaultKind.overflow ∈ ks) (h : ∀ x y, FaultsIn ks (f x y)) (a b : Number) :
    FaultsIn ks (onFloats f a b) :=
  have hfloat (c : Number) : FaultsIn ks c.toFloat := (faultsIn_toFloat c).mono (by simp [hks])
  (hfloat a).bind fun x => (hfloat b).bind fun y => h x y

theorem faultsIn_add (a b : Number) : FaultsIn [.overflow] (a.add b) := by
  unfold add
  split
  · exact .ok _
  · exact faultsIn_onFloats (by simp) (fun _ _ => .ok _) _ _

theorem faultsIn_sub (a b : Number) : FaultsIn [.overflow] (a.sub b) := by
  unfold sub
  split
  · exact .ok _
  · exact faultsIn_onFloats (by simp) (fun _ _ => .ok _) _ _

theorem faultsIn_mul (a b : Number) : FaultsIn [.overflow] (a.mul b) := by
  unfold mul
  split
  · exact .ok _
  · exact faultsIn_onFloats (by simp) (fun _ _ => .ok _) _ _

theorem faultsIn_div (a b : Number) : FaultsIn [.overflow, .zeroDivision] (a.div b) := by
  unfold div
  split
  · refine .ite (.error rfl) ?_
    split
    · exact .ok _
    · exact .error rfl
  · exact faultsIn_onFloats (by simp) (fun _ _ => .ite (.error rfl) (.ok _)) _ _

theorem faultsIn_floorDiv (a b : Number) :
    FaultsIn [.overflow, .zeroDivision] (a.floorDiv b) := by
  unfold floorDiv
  split
  · exact .ite (.error rfl) (.ok _)
  · exact faultsIn_onFloats (by simp) (fun _ _ => .ite (.error rfl) (.ok _)) _ _

theorem faultsIn_mod (a b : Number) : FaultsIn [.overflow, .zeroDivision] (a.mod b) := by
  unfold mod
  split
  · exact .ite (.error rfl) (.ok _)
  · exact faultsIn_onFloats (by simp) (fun _ _ => .ite (.error rfl) (.ok _)) _ _

/-- A double, unless there is none in the range. -/
theorem faultsIn_inRange (o : Option Float) (f : Float → Float) :
    FaultsIn [.overflow, .zeroDivision, .type] (match o with
      | some r => .ok (float (f r))
      | none => .error .resultOutOfRange : Except Fault Number) := by
  cases o with
  | some r => exact .ok _
  | none => exact .error rfl

theorem faultsIn_powFloat (x y : Float) :
    FaultsIn [.overflow, .zeroDivision, .type] (powFloat x y) := by
  unfold powFloat
  refine .ite (.ok _) (.ite (.ok _) (.ite (.ok _) (.ite ?_ (.ite ?_ (.ite ?_ ?_)))))
  · exact .ite (.ok _) (.ite (.ok _) (.ok _))
  · exact .ite (.ok _) (.ok _)
  · exact .ite (.error rfl) (.ok _)
  · exact .ite (.error rfl) (faultsIn_inRange _ _)

theorem faultsIn_pow (a b : Number) : FaultsIn [.overflow, .zeroDivision, .type] (a.pow b) := by
  unfold pow
  split
  · exact .ite (.ok _) (faultsIn_onFloats (by simp) faultsIn_powFloat _ _)
  · exact faultsIn_onFloats (by simp) faultsIn_powFloat _ _

end Number

/-! ## Data -/

namespace Data

/-- A listing, or its one fault. -/
def Unlistable (r : Except Fault α) : Prop :=
  FaultsAre (· = .integerTextTooLong) r

theorem Unlistable.faultsIn {r : Except Fault α} (h : Unlistable r) : FaultsIn [.value] r :=
  h.imp fun _ hf => hf ▸ List.mem_singleton_self _

theorem unlistable_intText (n : Int) : Unlistable (intText n) := by
  unfold intText
  split
  · exact .ok _
  · exact .of_error rfl

mutual

theorem unlistable_listing : ∀ d : Data, Unlistable d.listing
  | .null | .bool _ | .float _ | .text _ | .instant _ | .duration _ | .cycle _ => by
    rw [listing]
    exact .ok _
  | .int n => by
    rw [listing]
    exact unlistable_intText n
  | .tuple [x] => by
    rw [listing]
    exact (unlistable_listing x).bind fun _ => .ok _
  | .tuple [] => by
    rw [listing]
    · exact (unlistable_listings []).bind fun _ => .ok _
    · nofun
  | .tuple (x :: y :: xs) => by
    rw [listing]
    · exact (unlistable_listings (x :: y :: xs)).bind fun _ => .ok _
    · nofun
  | .slice a b c => by
    rw [listing]
    exact (unlistable_listing a).bind fun _ => (unlistable_listing b).bind fun _ =>
      (unlistable_listing c).bind fun _ => .ok _
  | .list items => by
    rw [listing]
    exact (unlistable_listings items).bind fun _ => .ok _
  | .mapping entries => by
    rw [listing]
    exact (unlistable_entryListings entries).bind fun _ => .ok _

theorem unlistable_listings : ∀ ds : List Data, Unlistable (listings ds)
  | [] => by
    rw [listings]
    exact .ok _
  | d :: ds => by
    rw [listings]
    exact (unlistable_listing d).bind fun _ => (unlistable_listings ds).bind fun _ => .ok _

theorem unlistable_entryListings : ∀ es : List (Data × Data), Unlistable (entryListings es)
  | [] => by
    rw [entryListings]
    exact .ok _
  | (k, v) :: es => by
    rw [entryListings]
    exact (unlistable_listing k).bind fun _ => (unlistable_listing v).bind fun _ =>
      (unlistable_entryListings es).bind fun _ => .ok _

end

theorem unlistable_asText (d : Data) : Unlistable d.asText := by
  unfold asText
  split
  · exact .ok _
  · exact .ok _
  · exact .ok _
  · exact unlistable_listing d

theorem faultsIn_compareNumber (op : Comparison) (type : String) (a : Number) (d : Data) :
    FaultsIn [.type] (compareNumber op type a d) := by
  unfold compareNumber
  split
  · exact .ok _
  · exact .error rfl

theorem faultsIn_compareBy (op : Comparison) (d e : Data) : FaultsIn [.type] (compareBy op d e) := by
  induction d, e using compareBy.induct
    (motive_2 := fun ds es => FaultsIn [.type] (compareItems op ds es)) with
  | case1 | case2 | case3 =>
    rw [compareBy]
    exact .ok _
  | case4 _ _ ih | case5 _ _ ih =>
    rw [compareBy]
    exact ih
  | case6 | case7 | case8 =>
    rw [compareBy]
    exact faultsIn_compareNumber _ _ _ _
  | case9 d e =>
    rw [compareBy]
    · exact .error rfl
    all_goals assumption
  | case10 | case11 | case12 =>
    rw [compareItems]
    exact .ok _
  | case13 _ _ _ _ heq ih =>
    rw [compareItems, if_pos heq]
    exact ih
  | case14 _ _ _ _ hne ih =>
    rw [compareItems, if_neg hne]
    exact ih

theorem faultsIn_roundedFloat (rounding : Parts → Int) (x : Float) :
    FaultsIn [.value, .overflow] (roundedFloat rounding x) := by
  unfold roundedFloat
  split
  · exact .error rfl
  · exact .error rfl
  · exact .ok _

theorem faultsIn_readWhole (s : String) (base : Nat) : FaultsIn [.value] (readWhole s base) := by
  unfold readWhole
  split
  · exact .ok _
  · exact .error rfl
  · exact .error rfl

theorem faultsIn_asWhole (d : Data) : FaultsIn [.type] d.asWhole := by
  unfold asWhole
  split
  · exact .ok _
  · exact .error rfl

theorem faultsIn_toWhole (d : Data) : FaultsIn [.type, .value, .overflow] d.toWhole := by
  unfold toWhole
  split
  · exact .ok _
  · exact (faultsIn_roundedFloat _ _).mono (by simp)
  · exact (faultsIn_readWhole _ _).mono (by simp)
  · exact .error rfl

/-- The whole number of a text in a base. -/
theorem faultsIn_readInBase (d : Data) (b : Nat) :
    FaultsIn [.type, .value, .overflow] (match d with
      | .text s => readWhole s b
      | _ => throw .explicitBase : Except Fault Int) := by
  split
  · exact (faultsIn_readWhole _ _).mono (by simp)
  · exact .throw rfl

theorem faultsIn_toWholeInBase (d base : Data) :
    FaultsIn [.type, .value, .overflow] (d.toWholeInBase base) := by
  refine ((faultsIn_asWhole base).mono (by simp)).bind fun b => ?_
  exact .ite (.bind (.throw rfl) fun _ => faultsIn_readInBase d _) (faultsIn_readInBase d _)

theorem faultsIn_toDouble (d : Data) : FaultsIn [.type, .value, .overflow] d.toDouble := by
  unfold toDouble
  split
  · exact (Number.faultsIn_toFloat _).mono (by simp)
  · split
    · exact .ok _
    · exact .error rfl
  · exact .error rfl

theorem faultsIn_rounded (d : Data) (places : Option Data) :
    FaultsIn [.type, .value, .overflow] (d.rounded places) := by
  unfold rounded
  split
  · exact .ok _
  · exact ((faultsIn_roundedFloat _ _).mono (by simp)).map _
  · refine ((faultsIn_asWhole _).mono (by simp)).bind fun k => ?_
    split_ifs <;> exact .ok _
  · refine ((faultsIn_asWhole _).mono (by simp)).bind fun k => ?_
    refine FaultsAre.bind ?_ fun y => .ok _
    unfold roundedTo
    split
    · exact .ok _
    · exact .error rfl
  · exact .error rfl

/-! ## Texts with directives -/

namespace Percent

theorem faultsIn_next (a : Arguments) : FaultsIn [.type] a.next := by
  unfold Arguments.next
  split
  · exact .ok _
  · exact .error rfl

theorem faultsIn_starred (word : String) (bound : Int) (a : Arguments) :
    FaultsIn [.type, .overflow] (starred word bound a) := by
  unfold starred
  refine ((faultsIn_next a).mono (by simp)).bind fun ⟨d, a⟩ => ?_
  have hbounded (n : Int) : FaultsIn [.type, .overflow]
      (if -bound - 1 ≤ n ∧ n ≤ bound then pure (n, a) else throw (.machineInteger word) :
        Except Fault (Int × Arguments)) :=
    .ite (.ok _) (.throw rfl)
  dsimp only
  split
  · exact (FaultsAre.ok _).bind hbounded
  · exact (FaultsAre.ok _).bind hbounded
  · exact (FaultsAre.throw rfl).bind hbounded

theorem faultsIn_integerText (s : Spec) (n : Int) : FaultsIn [.value] (integerText s n) := by
  unfold integerText
  refine .bind ?_ fun _ => .ok _
  split
  · exact .ok _
  · exact .ok _
  · exact .ok _
  · exact (unlistable_intText _).faultsIn.bind fun _ => .ok _

theorem faultsIn_wholeNumber (s : Spec) (d : Data) :
    FaultsIn [.type, .value, .overflow] (wholeNumber s d) := by
  unfold wholeNumber
  dsimp only
  split
  · exact .ok _
  · refine .ite (.error rfl) ?_
    split
    · exact .error rfl
    · exact .error rfl
    · exact .ok _
  · split <;> exact .error rfl

theorem faultsIn_write (s : Spec) (index : Nat) (d : Data) :
    FaultsIn [.type, .value, .overflow] (write s index d) := by
  have hlisting : FaultsIn [.type, .value, .overflow] d.listing :=
    (unlistable_listing d).faultsIn.mono (by simp)
  unfold write
  split
  · exact ((unlistable_asText d).faultsIn.mono (by simp)).bind fun _ => .ok _
  · exact hlisting.bind fun _ => .ok _
  · exact (hlisting.bind fun _ => .ok _).bind fun _ => .ok _
  · split
    · exact .ite (.ok _) (.error rfl)
    · split
      · exact .ite (.ok _) (.error rfl)
      · exact .error rfl
  · refine .ite ?_ (.ite ?_ (.error rfl))
    · exact (faultsIn_wholeNumber s d).bind fun n =>
        ((faultsIn_integerText s n).mono (by simp)).bind fun _ => .ok _
    · split
      · exact ((Number.faultsIn_toFloat _).mono (by simp)).bind fun _ => .ok _
      · exact .error rfl

theorem faultsIn_lookUp (source : Data) (key : String) :
    FaultsIn [.type, .key] (lookUp source key) := by
  unfold lookUp
  split
  · split
    · exact .ok _
    · exact .error rfl
  · exact .error rfl

theorem faultsIn_directive (total : Nat) (a : Arguments) (cs : List Char) :
    FaultsIn [.type, .value, .key, .overflow] (directive total a cs) := by
  have hstarred (word bound) (a : Arguments) :
      FaultsIn [.type, .value, .key, .overflow] (starred word bound a) :=
    (faultsIn_starred word bound a).mono (by simp)
  unfold directive
  refine .bind ?_ fun p => .bind ?_ fun q => .bind ?_ fun r => ?_
  · split
    · split
      · exact .error rfl
      · split
        · exact .error rfl
        · exact ((faultsIn_lookUp _ _).mono (by simp)).bind fun _ => .ok _
    · exact .ok _
  · split
    · exact (hstarred _ _ _).bind fun _ => .ok _
    · exact .ite (.error rfl) (.ok _)
  · split
    · exact (hstarred _ _ _).bind fun _ => .ok _
    · exact .ite (.error rfl) (.ok _)
    · exact .ok _
  · dsimp only
    split
    · exact .throw rfl
    · exact .ok _

theorem faultsIn_go (total fuel : Nat) (a : Arguments) (cs : List Char) (out : String) :
    FaultsIn [.type, .value, .key, .overflow] (go total fuel a cs out) := by
  induction fuel generalizing a cs out with
  | zero => exact .ok _
  | succ fuel ih =>
    cases cs with
    | nil => exact .ok _
    | cons c cs =>
      rw [go]
      · split
        · exact .ok _
        · exact ih _ _ _
        · refine (faultsIn_directive _ _ _).bind fun p => ?_
          refine ((faultsIn_next _).mono (by simp)).bind fun q => ?_
          exact ((faultsIn_write _ _ _).mono (by simp)).bind fun t => ih _ _ _
      · nofun

/-- A text with directives has faults of its directives, its keys and its arguments. -/
theorem faultsIn_format (text : String) (argument : Data) :
    FaultsIn [.type, .value, .key, .overflow] (format text argument) := by
  unfold format
  refine (faultsIn_go _ _ _ _ _).bind fun p => ?_
  exact .ite (.bind (.throw rfl) fun _ => .ok _) (.ok _)

end Percent

end Data

/-! ## JSON texts -/

namespace Json

theorem faultsIn_number (layout : Layout) (x : Float) : FaultsIn [.value] (number layout x) := by
  unfold number
  exact .ite (.ok _) (.error rfl)

theorem faultsIn_foreign (layout : Layout) (type text listing : String) :
    FaultsIn [.type] (foreign layout type text listing) := by
  unfold foreign
  split
  · exact .error rfl
  · exact .ok _
  · exact .ok _

theorem faultsIn_key (layout : Layout) (d : Data) : FaultsIn [.type, .value] (key layout d) := by
  unfold key
  split
  · exact .ok _
  · exact (faultsIn_number _ _).mono (by simp)
  · exact .ok _
  · exact .ok _
  · exact (Data.unlistable_intText _).faultsIn.mono (by simp)
  · exact .error rfl

mutual

theorem faultsIn_write (layout : Layout) :
    ∀ d : Data, FaultsIn [.type, .value] (write layout d)
  | .null | .bool _ | .text _ => by
    rw [write]
    exact .ok _
  | .int n => by
    rw [write]
    exact (Data.unlistable_intText n).faultsIn.mono (by simp)
  | .float x => by
    rw [write]
    exact (faultsIn_number layout x).mono (by simp)
  | .list items | .tuple items => by
    rw [write]
    exact (faultsIn_writeAll layout items).bind fun _ => .ok _
  | .mapping entries => by
    rw [write]
    exact (faultsIn_writeEntries layout entries).bind fun _ => .ok _
  | .cycle _ | .slice .. => by
    rw [write]
    exact .error rfl
  | .instant _ | .duration _ => by
    rw [write]
    exact (faultsIn_foreign layout _ _ _).mono (by simp)

theorem faultsIn_writeAll (layout : Layout) :
    ∀ ds : List Data, FaultsIn [.type, .value] (writeAll layout ds)
  | [] => by
    rw [writeAll]
    exact .ok _
  | d :: ds => by
    rw [writeAll]
    exact (faultsIn_write layout d).bind fun _ => (faultsIn_writeAll layout ds).bind fun _ => .ok _

theorem faultsIn_writeEntries (layout : Layout) :
    ∀ es : List (Data × Data), FaultsIn [.type, .value] (writeEntries layout es)
  | [] => by
    rw [writeEntries]
    exact .ok _
  | (k, v) :: es => by
    rw [writeEntries]
    exact (faultsIn_key layout k).bind fun _ => (faultsIn_write layout v).bind fun _ =>
      (faultsIn_writeEntries layout es).bind fun _ => .ok _

end

theorem Refusal.kind_fault (all : List Char) (r : Refusal) (rest : List Char) :
    (r.fault all rest).kind = .value := by
  cases r <;> rfl

theorem faultsIn_read (s : String) : FaultsIn [.value] (read s) := by
  have herror (r : Refusal) (rest : List Char) :
      FaultsIn [.value] (.error (r.fault s.toList rest) : Except Fault Data) :=
    .error (by rw [Refusal.kind_fault]; rfl)
  unfold read
  dsimp only
  refine .ite (herror _ _) ?_
  split
  · exact herror _ _
  · split
    · exact .ok _
    · exact herror _ _

end Json

end Rulebook
