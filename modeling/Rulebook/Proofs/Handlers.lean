/-
  What handlers leave of the heap.

  Ten of the standard handlers change no object: they read, make new objects and ask services.  The
  other two write once, when nothing can fail any more.

  * `Act.Plain`, `sendNotification_plain`, …: what handlers are made of, for any property that goes
    along with it;
  * `keeps_plain`: such properties of the surroundings;
  * `Backoff.run_keeps`, `sendGuarded_keeps`: requests, however often they are tried;
  * `executeScript_keeps`, `callService_keeps`: handlers that do not write;
  * `setField_writes`, `calculate_writes`: those that do.
-/
import Rulebook.Handler.Standard
import Rulebook.Proofs.Script.Isolation

namespace Rulebook

/-! ## Operations -/

namespace Act

/-- A property of what actions do that goes along with reading, making objects and failing. -/
structure Plain (P : ∀ {α : Type}, Act α → Prop) : Prop where
  pure {α : Type} (a : α) : P (Pure.pure a)
  bind {α β : Type} {x : Act α} {f : α → Act β} : P x → (∀ a, P (f a)) → P (x >>= f)
  lift {α : Type} (r : Except Fault α) : P (Act.lift r)
  refuse {α : Type} (message : String) (details : Details) : P (Act.refuse message details : Act α)
  get : P (get : Act Surroundings)
  load (d : Data) : P (Act.load d)
  give (entries : List (String × Value)) : P (Act.give entries)
  resolve (c : Context) (d : Data) : P (Act.resolve c d)

theorem Plain.heap {P : ∀ {α : Type}, Act α → Prop} (hP : Plain P) : P Act.heap :=
  hP.bind hP.get fun s => hP.pure s.heap

theorem resolve_apply (c : Context) (d : Data) (s : Surroundings) :
    Act.resolve c d s =
      match Template.resolve { context := c } s.heap d with
      | .ok p => .ok p.1 { s with heap := p.2 }
      | .error f => .error (.failed (.fault f)) s := by
  change (Act.lift (Template.resolve { context := c } s.heap d) >>= Act.keeping) s = _
  cases Template.resolve { context := c } s.heap d <;> rfl

theorem heap_bind_keepsAt {R : Surroundings → Surroundings → Prop} {α : Type} {f : Heap → Act α}
    {s : Surroundings} (hf : KeepsAt R s (f s.heap)) : KeepsAt R s (Act.heap >>= f) :=
  hf

/-- What is kept by more objects on the heap is kept by the plain operations. -/
theorem keeps_plain {R : Surroundings → Surroundings → Prop} [IsPreorder Surroundings R]
    (hR : ∀ s h, s.heap.Extends h → R s { s with heap := h }) : Plain fun act => Keeps R act where
  pure a := .pure a
  bind := .bind
  lift r := by
    cases r
    · exact .throw _
    · exact .pure _
  refuse _ _ := .throw _
  get s := refl_of R s
  load d s := hR s _ (Heap.load_extends s.heap d)
  give entries s := hR s _ (.newMapping s.heap _)
  resolve c d s := by
    rw [KeepsAt, resolve_apply]
    split
    · next p hp => exact hR s p.2 (Template.resolve_extends _ s.heap d hp)
    · exact refl_of R s

end Act

/-! ## Plain handlers -/

namespace Handler

open Act

variable {P : ∀ {α : Type}, Act α → Prop} (hP : Plain P) (stamps : Stamps) (ps : Details)
  (c : Context) (deadline : Float)

include hP

theorem sendNotification_plain : P ((sendNotification stamps).run ps c deadline) :=
  hP.bind (hP.resolve c _) fun _ => hP.bind (hP.resolve c _) fun _ =>
    hP.bind (hP.resolve c _) fun _ => hP.bind (hP.load _) fun _ => hP.give _

theorem sendEmail_plain : P ((sendEmail stamps).run ps c deadline) :=
  hP.bind (hP.resolve c _) fun _ => hP.bind (hP.resolve c _) fun _ =>
    hP.bind (hP.resolve c _) fun _ => hP.bind (hP.resolve c _) fun _ =>
      hP.bind (hP.resolve c _) fun _ => hP.bind (hP.resolve c _) fun _ =>
        hP.bind (hP.load _) fun _ => hP.bind (hP.load _) fun _ => hP.give _

theorem triggerWorkflow_plain : P ((triggerWorkflow stamps).run ps c deadline) :=
  hP.bind (hP.resolve c _) fun _ => hP.bind (hP.resolve c _) fun _ =>
    hP.bind (hP.load _) fun _ => hP.give _

theorem logEvent_plain : P ((logEvent stamps).run ps c deadline) :=
  hP.bind (hP.lift _) fun _ => hP.bind (hP.resolve c _) fun _ => hP.bind (hP.resolve c _) fun _ =>
    hP.bind (hP.resolve c _) fun _ => hP.bind hP.heap fun _ => hP.bind (hP.lift _) fun _ =>
      hP.give _

theorem reasonOr_plain (d : Data) (usual : String) : P (reasonOr c d usual) :=
  hP.bind (hP.resolve c d) fun _ => hP.bind hP.heap fun _ => hP.pure _

theorem approve_plain : P ((approve stamps).run ps c deadline) :=
  hP.bind (reasonOr_plain hP c _ _) fun _ => hP.bind (hP.resolve c _) fun _ =>
    hP.bind (hP.resolve c _) fun _ => hP.give _

theorem reject_plain : P ((reject stamps).run ps c deadline) :=
  hP.bind (reasonOr_plain hP c _ _) fun _ => hP.bind (hP.resolve c _) fun _ =>
    hP.bind (hP.resolve c _) fun _ => hP.give _

theorem escalate_plain : P ((escalate stamps).run ps c deadline) :=
  hP.bind (hP.resolve c _) fun _ => hP.bind (hP.resolve c _) fun _ =>
    hP.bind (hP.resolve c _) fun _ => hP.bind (hP.resolve c _) fun _ => hP.give _

/-- A database is asked by noting what it is asked and waiting for it; it may raise something. -/
theorem updateDatabase_plain {database : Option Database}
    (hnote : ∀ update : DatabaseUpdate,
      P (modify fun s => { s with updates := s.updates ++ [update] } : Act Unit))
    (hwait : P Act.wait)
    (hraise : ∀ ask update e, database = some ask → ask update = .error e →
      P (Act.fail e : Act Value)) :
    P ((updateDatabase stamps database).run ps c deadline) := by
  have hgive (rows fields changed : Value) : P (do
      Act.give [("table", ← Act.load (ps.parameter "table")),
        ("operation", ← Act.load (ps.parameter "operation" (.text "update"))), ("where", rows),
        ("data", fields), ("affected_rows", changed), ("simulated", .bool database.isNone),
        ("updated", .bool true), ("executed_at", stamps.timeOf)]) :=
    hP.bind (hP.load _) fun _ => hP.bind (hP.load _) fun _ => hP.give _
  refine hP.bind (hP.resolve c _) fun rows => hP.bind (hP.resolve c _) fun fields => ?_
  cases database with
  | none => exact hgive rows fields (.int 0)
  | some ask =>
    refine hP.bind hP.heap fun h => hP.bind (hnote _) fun _ => hP.bind hwait fun _ => ?_
    cases hask : ask ⟨ps.parameter "table", ps.parameter "operation" (.text "update"),
      h.plain rows, h.plain fields⟩ with
    | ok d => exact hP.bind (hP.load d) fun v => hgive rows fields v
    | error e => exact hP.bind (hraise ask _ e rfl hask) fun v => hgive rows fields v

theorem prepare_plain : P (callService.prepare ps c) := by
  have hrefuse (v : Value) : P (callService.refuseAddress v) :=
    hP.bind hP.heap fun _ => hP.bind (hP.lift _) fun _ => hP.refuse _ _
  refine hP.bind (hP.resolve c _) fun url => ?_
  split
  · split
    · exact hrefuse _
    · exact hP.bind (hP.lift _) fun _ => hP.bind (hP.resolve c _) fun _ =>
        hP.bind (hP.resolve c _) fun _ => hP.bind (hP.resolve c _) fun _ =>
          hP.bind (hP.lift _) fun _ => hP.bind hP.heap fun _ => hP.pure _
  · exact hrefuse _

theorem answer_plain (hcut : P (throw .cut : Act Value)) (q : Inquiry)
    (called : Breakers.Called Float NoAnswer Answer) : P (callService.answer stamps q called) := by
  unfold callService.answer
  split
  · exact hP.refuse _ _
  · next f => exact hP.lift (.error f)
  · exact hcut
  · exact hP.refuse _ _
  · split
    · exact hP.refuse _ _
    · exact hP.bind (hP.load _) fun _ => hP.give _

theorem callService_plain (config : Config) (hcut : P (throw .cut : Act Value))
    (hsend : ∀ service request, P (sendGuarded config service request deadline)) :
    P ((callService config stamps).run ps c deadline) :=
  hP.bind (prepare_plain hP ps c) fun q => hP.bind (hsend q.service q.request) fun called =>
    answer_plain hP stamps hcut q called

theorem formulaNames_plain (given : Value) : P (formulaNames c given) := by
  unfold formulaNames
  split
  · split
    · exact hP.bind hP.heap fun _ => hP.bind hP.heap fun _ => hP.pure _
    · exact hP.lift (.error (.notMapping c.entity.typeName))
  · exact hP.refuse _ _

end Handler

/-! ## Objects -/

/-- The objects are as they were. -/
def ObjectsKept (s s' : Surroundings) : Prop :=
  s.heap.Extends s'.heap

instance : IsPreorder Surroundings ObjectsKept where
  refl s := .refl s.heap
  trans _ _ _ h h' := h.trans h'

theorem objectsKept_plain : Act.Plain fun act => Keeps ObjectsKept act :=
  Act.keeps_plain fun _ _ h => h

/-! ## Requests -/

theorem Backoff.run_keeps {σ ε α : Type} {R : σ → σ → Prop} [IsPreorder σ R] (b : Backoff)
    (t : Backoff.Task σ ε α) (hcall : ∀ s, R s (t.call s).2)
    (hsleep : ∀ d s, R s (t.sleep d s).2)
    (s : σ) : R s (b.run t s).2 := by
  have htries (left before : Nat) (s : σ) : R s (b.tries t left before s).2 := by
    induction left generalizing before s with
    | zero =>
      have hc := hcall s
      unfold Backoff.tries
      split
      · next h => rwa [h] at hc
      · next h =>
        rw [h] at hc
        split_ifs
        · exact hc
        · dsimp only
          split <;> first | exact hc | contradiction
    | succ left ih =>
      have hc := hcall s
      unfold Backoff.tries
      split
      · next h => rwa [h] at hc
      · next e s' h =>
        rw [h] at hc
        split_ifs
        · exact hc
        · dsimp only
          split
          · exact hc
          · contradiction
          · next _ _ delay _ _ _ heq =>
            split_ifs
            · exact hc
            · obtain rfl := Nat.succ.inj heq
              have hslept := trans_of R hc (hsleep delay s')
              split
              · next hs => rwa [hs] at hslept
              · next hs =>
                rw [hs] at hslept
                exact trans_of R hslept (ih (before + 1) _)
  exact htries _ 0 s

theorem Breakers.call_keeps {τ σ ε α : Type} [Quantity τ] {R : σ → σ → Prop} [IsPreorder σ R]
    {breakers : σ → Breakers τ} {keep : Breakers τ → σ → σ} {now : σ → τ} {name : String}
    {passes : ε → Bool} {isFailure : α → Except ε Bool} {target : σ → Except ε α × σ}
    (hkeep : ∀ bs s, R s (keep bs s)) (htarget : ∀ s, R s (target s).2) (s : σ) :
    R s (Breakers.call breakers keep now name passes isFailure target s).2 := by
  unfold Breakers.call
  dsimp only
  split
  · exact hkeep _ s
  · next b _ =>
    have hdone := trans_of R (hkeep ((breakers s).put name b) s) (htarget _)
    split
    · dsimp only
      split_ifs
      · exact hdone
      · exact trans_of R hdone (hkeep _ _)
    · split
      · exact trans_of R hdone (hkeep _ _)
      · exact hdone

/-! ## Handlers that do not write -/

namespace Handler

open Act

theorem wait_keeps : Keeps ObjectsKept Act.wait := fun s => by
  unfold KeepsAt Act.wait
  split_ifs <;> exact .refl s.heap

theorem executeScript_keeps (config : Config) (stamps : Stamps) (ps : Details)
    (c : Context) (deadline : Float) :
    Keeps ObjectsKept ((executeScript config stamps).run ps c deadline) := by
  have hP := objectsKept_plain
  dsimp only [executeScript, requiring]
  split
  · next language _ =>
    split
    · exact hP.refuse _ _
    · refine hP.bind hP.get fun _ => hP.bind (hP.lift _) fun stop => hP.bind (hP.load _)
        fun source => fun s => ?_
      refine heap_bind_keepsAt ?_
      split
      · exact hP.refuse _ _ s
      · next names h hn =>
        refine KeepsAt.get_bind ?_
        have hrun (scope : Script.Scope) : KeepsAt ObjectsKept s
            (Act.setHeap (Script.runScript h scope source).heap) :=
          (c.names_extends s.heap hn).trans (Script.runScript_extends h scope source)
        refine (hrun _).bind fun _ s' _ => (wait_keeps s').bind fun _ s' _ => ?_
        split
        · exact hP.refuse _ _ s'
        · next d _ =>
          exact hP.bind (hP.load d) (fun _ => hP.bind (hP.load _) fun _ => hP.give _) s'
  · exact hP.bind (hP.lift _) fun _ => hP.refuse _ _

theorem send_snd_heap (request : Except Fault Http.Request) (s : Surroundings) :
    (send request s).2.heap = s.heap := by
  cases request <;> rfl

theorem sendGuarded_keeps (config : Config) (service : String)
    (request : Except Fault Http.Request) (deadline : Float) :
    Keeps ObjectsKept (sendGuarded config service request deadline) := fun s => by
  have hsend (s : Surroundings) : ObjectsKept s (send request s).2 :=
    show s.heap.Extends _ from (send_snd_heap request s).symm ▸ .refl s.heap
  have htry (s : Surroundings) : ObjectsKept s (sendTrying config request deadline s).2 :=
    Backoff.run_keeps (requestBackoff config) (sending request deadline) hsend
      (fun _ s => .refl s.heap) s
  unfold KeepsAt sendGuarded
  split
  next r s' hcall =>
    change ObjectsKept s s'
    rw [← show _ = s' from congrArg Prod.snd hcall]
    exact Breakers.call_keeps (fun _ s => .refl s.heap) htry s

theorem callService_keeps (config : Config) (stamps : Stamps) (ps : Details)
    (c : Context) (deadline : Float) :
    Keeps ObjectsKept ((callService config stamps).run ps c deadline) :=
  callService_plain objectsKept_plain stamps ps c deadline config (.throw _) fun service request =>
    sendGuarded_keeps config service request deadline

theorem updateDatabase_keeps (stamps : Stamps) (database : Option Database) (ps : Details)
    (c : Context) (deadline : Float) :
    Keeps ObjectsKept ((updateDatabase stamps database).run ps c deadline) :=
  updateDatabase_plain objectsKept_plain stamps ps c deadline (fun _ s => .refl s.heap) wait_keeps
    fun _ _ _ _ _ => .throw _

/-! ## Handlers that write -/

/-- A run of a handler that fails has changed no object; one that does not fail comes to a value
    with a property. -/
def WritesLast (s : Surroundings) (Q : Value → Heap → Prop) (act : Act Value) : Prop :=
  Ends (fun _ s' => ObjectsKept s s') (fun v s' => Q v s'.heap) s act

theorem writeEntity_apply (c : Context) (path : String) (v : Value) (s : Surroundings) :
    writeEntity c path v s =
      match s.heap.setPath c.entity (Path.split path) v with
      | .ok h => .ok () { s with heap := h }
      | .error f => .error (.failed (.fault f)) s := by
  change (Act.lift (s.heap.setPath c.entity (Path.split path) v) >>= Act.setHeap) s = _
  cases s.heap.setPath c.entity (Path.split path) v <;> rfl

section

variable {α : Type} {E : Act.Stop → Surroundings → Prop} {Q : α → Surroundings → Prop}
  {s : Surroundings}

theorem ends_heap_bind {f : Heap → Act α} (hf : Ends E Q s (f s.heap)) :
    Ends E Q s (Act.heap >>= f) :=
  hf

theorem ends_lift_bind {β : Type} {r : Except Fault β} {f : β → Act α}
    (hE : ∀ e, r = .error e → E (.failed (.fault e)) s) (hf : ∀ b, r = .ok b → Ends E Q s (f b)) :
    Ends E Q s (Act.lift r >>= f) := by
  cases r with
  | error e => exact hE e rfl
  | ok b => exact hf b rfl

theorem ends_resolve_bind {c : Context} {d : Data} {f : Value → Act α}
    (hE : ∀ e, Template.resolve { context := c } s.heap d = .error e → E (.failed (.fault e)) s)
    (hf : ∀ p, Template.resolve { context := c } s.heap d = .ok p →
      Ends E Q { s with heap := p.2 } (f p.1)) : Ends E Q s (Act.resolve c d >>= f) := by
  refine .bind ?_
  rw [Ends, resolve_apply]
  cases hr : Template.resolve { context := c } s.heap d with
  | error e => exact hE e hr
  | ok p => exact hf p hr

theorem ends_writeEntity_bind {c : Context} {path : String} {v : Value} {f : Unit → Act α}
    (hE : ∀ e, s.heap.setPath c.entity (Path.split path) v = .error e → E (.failed (.fault e)) s)
    (hf : ∀ h, s.heap.setPath c.entity (Path.split path) v = .ok h →
      Ends E Q { s with heap := h } (f ())) : Ends E Q s (writeEntity c path v >>= f) := by
  refine .bind ?_
  rw [Ends, writeEntity_apply]
  cases hw : s.heap.setPath c.entity (Path.split path) v with
  | error e => exact hE e hw
  | ok h => exact hf h hw

end

theorem setField_writes (ps : Details) (c : Context) (deadline : Float) (s : Surroundings) :
    WritesLast s (fun _ h' => ∃ path p h, ps.parameter "field" = .text path ∧
      Template.resolve { context := c } s.heap (ps.parameter "value") = .ok p ∧
      p.2.setPath c.entity (Path.split path) p.1 = .ok h ∧ h.Extends h')
      (setField.run ps c deadline) := by
  dsimp only [setField, requiring]
  split
  · next path hfield =>
    split
    · exact .refl s.heap
    · refine ends_resolve_bind (fun _ _ => .refl s.heap) fun p hp => ?_
      have hkept : s.heap.Extends p.2 := Template.resolve_extends _ s.heap _ hp
      refine ends_heap_bind (ends_lift_bind (fun _ _ => hkept) fun before _ => ?_)
      refine ends_writeEntity_bind (fun _ _ => hkept) fun h hw => ?_
      exact ⟨path, p, h, hfield, hp, hw, .newMapping h _⟩
  · exact .refl s.heap

/-- The value of a field of what an action gives. -/
def given? (h : Heap) (v : Value) (name : String) : Option Value :=
  match v with
  | .mapping r => (h.entries r).field? name
  | _ => none

theorem given?_newMapping (h : Heap) (es : Entries) (name : String) :
    given? (h.newMapping es).2 (h.newMapping es).1 name = es.field? name := by
  simp [given?, Heap.newMapping, Heap.alloc, Heap.entries, Heap.read?]

/-- What is given at the end of a calculation, which never fails. -/
theorem calculate_gives (stamps : Stamps) (formula target : Data) (text : String)
    (result given : Value) (s : Surroundings) :
    Ends (fun _ _ => False) (fun v s' => s.heap.Extends s'.heap ∧
      given? s'.heap v "result" = some result) s
      (do Act.give [("expression", ← Act.load formula), ("evaluated_expression", .text text),
        ("result", result), ("variables", given), ("target_field", ← Act.load target),
        ("calculated_at", stamps.timeOf)]) := by
  have hload := (Heap.load_extends s.heap formula).trans (Heap.load_extends _ target)
  refine ⟨hload.trans (.newMapping _ _), ?_⟩
  refine (given?_newMapping _ _ "result").trans ?_
  simp [Entries.field?, Entries.get?, Value.sameKey]

theorem calculate_writes (stamps : Stamps) (ps : Details) (c : Context) (deadline : Float)
    (s : Surroundings) :
    WritesLast s (fun v h' =>
      ((ps.parameter "targetField").truth = false → s.heap.Extends h') ∧
      ((ps.parameter "targetField").truth = true → ∃ path result h₁ h,
        ps.parameter "targetField" = .text path ∧ given? h' v "result" = some result ∧
        s.heap.Extends h₁ ∧ h₁.setPath c.entity (Path.split path) result = .ok h ∧ h.Extends h'))
      ((calculate stamps).run ps c deadline) := by
  dsimp only [calculate, requiring]
  refine ends_resolve_bind (fun _ _ => .refl s.heap) fun p hp => ?_
  have hkept : s.heap.Extends p.2 := Template.resolve_extends _ s.heap _ hp
  refine .bind ((formulaNames_plain objectsKept_plain c p.1 _).ends (fun _ _ hs => hkept.trans hs)
    fun extra s₁ _ hs => ?_)
  have hkept₁ : s.heap.Extends s₁.heap := hkept.trans hs
  refine ends_lift_bind (fun _ _ => hkept₁) fun template _ => ?_
  refine ends_heap_bind (ends_lift_bind (fun _ _ => hkept₁) fun filled _ => ?_)
  refine ends_heap_bind (ends_lift_bind (fun _ _ => hkept₁) fun text _ => ?_)
  split
  · exact hkept₁
  · next n _ =>
    refine ends_lift_bind (fun _ _ => hkept₁) fun rounded _ => ?_
    split
    · next htarget =>
      split
      · next path hpath =>
        refine ends_writeEntity_bind (fun _ _ => hkept₁) fun h hw => ?_
        refine (calculate_gives stamps _ _ text _ _ _).mono (fun _ _ => False.elim) ?_
        rintro v s₂ ⟨hs₂, hv⟩
        exact ⟨fun hnot => absurd (htarget.symm.trans hnot) nofun, fun _ =>
          ⟨path, _, s₁.heap, h, hpath, hv, hkept₁, hw, hs₂⟩⟩
      · exact hkept₁
    · next htarget =>
      refine (calculate_gives stamps _ _ text _ _ _).mono (fun _ _ => False.elim) ?_
      rintro v s₂ ⟨hs₂, -⟩
      exact ⟨fun _ => hkept₁.trans hs₂, fun htrue => absurd htrue htarget⟩

end Handler

end Rulebook
