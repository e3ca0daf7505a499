/-
  What computations leave of their state.

  A computation `Keeps` a relation if it takes every state to one that is related to it, whether it
  has a result or fails.  Of a preorder this goes through sequences, so it has to be shown of single
  operations only.

  * `Keeps.pure`, `Keeps.throw`, `Keeps.bind`: sequences;
  * `KeepsAt.bind`: the same from one state, where the rest may depend on that state.
-/
import Mathlib.Order.Defs.Unbundled

namespace Rulebook

variable {ε σ α β : Type}

/-- The state that is left by a computation that has ended. -/
def stateLeft : EStateM.Result ε σ α → σ
  | .ok _ s => s
  | .error _ s => s

/-- A computation takes a state to a related one. -/
def KeepsAt (R : σ → σ → Prop) (s : σ) (x : EStateM ε σ α) : Prop :=
  R s (stateLeft (x s))

/-- A computation takes all states to related ones. -/
def Keeps (R : σ → σ → Prop) (x : EStateM ε σ α) : Prop :=
  ∀ s, KeepsAt R s x

/-- A computation fails with one property, or has a result with another. -/
def Ends (E : ε → σ → Prop) (Q : α → σ → Prop) (s : σ) (x : EStateM ε σ α) : Prop :=
  match x s with
  | .ok a s' => Q a s'
  | .error e s' => E e s'

/-- The result of a computation in a sequence. -/
theorem bind_apply (x : EStateM ε σ α) (f : α → EStateM ε σ β) (s : σ) :
    (x >>= f) s = match x s with
      | .ok a s' => f a s'
      | .error e s' => .error e s' :=
  rfl

theorem bind_of_ok {x : EStateM ε σ α} {s s' : σ} {a : α} (h : x s = .ok a s')
    (f : α → EStateM ε σ β) : (x >>= f) s = f a s' := by
  rw [bind_apply, h]

theorem bind_of_error {x : EStateM ε σ α} {s s' : σ} {e : ε} (h : x s = .error e s')
    (f : α → EStateM ε σ β) : (x >>= f) s = .error e s' := by
  rw [bind_apply, h]

theorem bind_eq_ok {x : EStateM ε σ α} {f : α → EStateM ε σ β} {s s' : σ} {b : β} :
    (x >>= f) s = .ok b s' ↔ ∃ a s₁, x s = .ok a s₁ ∧ f a s₁ = .ok b s' := by
  rw [bind_apply]
  cases x s <;> simp [and_assoc]

theorem exceptBind_eq_ok {x : Except ε α} {f : α → Except ε β} {b : β} :
    x >>= f = .ok b ↔ ∃ a, x = .ok a ∧ f a = .ok b := by
  cases x with
  | error e => simp [bind, Except.bind]
  | ok a => simp [bind, Except.bind]

theorem mapM_cons_eq_ok {f : α → Except ε β} {a : α} {l : List α} {bs : List β} :
    (a :: l).mapM f = .ok bs ↔ ∃ b rest, f a = .ok b ∧ l.mapM f = .ok rest ∧ bs = b :: rest := by
  rw [List.mapM_cons, exceptBind_eq_ok]
  constructor
  · rintro ⟨b, hb, hbs⟩
    obtain ⟨rest, hrest, hbs⟩ := exceptBind_eq_ok.1 hbs
    cases hbs
    exact ⟨b, rest, hb, hrest, rfl⟩
  · rintro ⟨b, rest, hb, hrest, rfl⟩
    exact ⟨b, hb, exceptBind_eq_ok.2 ⟨rest, hrest, rfl⟩⟩

theorem exceptMap_eq_ok {x : Except ε α} {f : α → β} {b : β} :
    x.map f = .ok b ↔ ∃ a, x = .ok a ∧ f a = b := by
  cases x <;> simp [Except.map]

theorem Ends.bind {E : ε → σ → Prop} {Q : β → σ → Prop} {x : EStateM ε σ α}
    {f : α → EStateM ε σ β} {s : σ} (hx : Ends E (fun a s' => Ends E Q s' (f a)) s x) :
    Ends E Q s (x >>= f) := by
  simp only [Ends, bind_apply] at *
  cases h : x s with
  | ok a s' =>
    rw [h] at hx
    exact hx
  | error e s' =>
    rw [h] at hx
    exact hx

theorem Ends.bind_of_ok {E : ε → σ → Prop} {Q : β → σ → Prop} {x : EStateM ε σ α}
    {f : α → EStateM ε σ β} {s s' : σ} {a : α} (hx : x s = .ok a s') (hf : Ends E Q s' (f a)) :
    Ends E Q s (x >>= f) := by
  refine .bind ?_
  rwa [Ends, hx]

theorem Ends.get_bind {E : ε → σ → Prop} {Q : β → σ → Prop} {f : σ → EStateM ε σ β} {s : σ}
    (hf : Ends E Q s (f s)) : Ends E Q s (get >>= f) :=
  hf

/-- Two properties of how a computation ends hold of one end. -/
theorem Ends.both {E E' : ε → σ → Prop} {Q Q' : α → σ → Prop} {x : EStateM ε σ α} {s : σ}
    (hx : Ends E Q s x) (hx' : Ends E' Q' s x) :
    (∃ e s', E e s' ∧ E' e s') ∨ ∃ a s', Q a s' ∧ Q' a s' := by
  unfold Ends at hx hx'
  cases h : x s with
  | ok a s' =>
    rw [h] at hx hx'
    exact .inr ⟨a, s', hx, hx'⟩
  | error e s' =>
    rw [h] at hx hx'
    exact .inl ⟨e, s', hx, hx'⟩

theorem Ends.mono {E E' : ε → σ → Prop} {Q Q' : α → σ → Prop} {x : EStateM ε σ α} {s : σ}
    (hx : Ends E Q s x) (hE : ∀ e s', E e s' → E' e s') (hQ : ∀ a s', Q a s' → Q' a s') :
    Ends E' Q' s x := by
  unfold Ends at *
  cases h : x s with
  | ok a s' =>
    rw [h] at hx
    exact hQ a s' hx
  | error e s' =>
    rw [h] at hx
    exact hE e s' hx

theorem KeepsAt.ends {R : σ → σ → Prop} {E : ε → σ → Prop} {Q : α → σ → Prop}
    {x : EStateM ε σ α} {s : σ} (hx : KeepsAt R s x) (hE : ∀ e s', R s s' → E e s')
    (hQ : ∀ a s', x s = .ok a s' → R s s' → Q a s') : Ends E Q s x := by
  unfold Ends
  rw [KeepsAt] at hx
  split
  · next a s' h =>
    rw [h] at hx
    exact hQ a s' h hx
  · next e s' h =>
    rw [h] at hx
    exact hE e s' hx

theorem KeepsAt.get_bind {R : σ → σ → Prop} {f : σ → EStateM ε σ α} {s : σ}
    (hf : KeepsAt R s (f s)) : KeepsAt R s (get >>= f) :=
  hf

section

variable {R : σ → σ → Prop} [IsPreorder σ R]

theorem KeepsAt.pure (a : α) (s : σ) : KeepsAt R s (pure a : EStateM ε σ α) :=
  refl_of R s

theorem KeepsAt.throw (e : ε) (s : σ) : KeepsAt R s (throw e : EStateM ε σ α) :=
  refl_of R s

theorem KeepsAt.bind {x : EStateM ε σ α} {f : α → EStateM ε σ β} {s : σ} (hx : KeepsAt R s x)
    (hf : ∀ a s', x s = .ok a s' → KeepsAt R s' (f a)) : KeepsAt R s (x >>= f) := by
  simp only [KeepsAt, bind_apply] at *
  cases h : x s with
  | ok a s' =>
    rw [h] at hx
    exact trans_of R hx (hf a s' h)
  | error e s' =>
    rw [h] at hx
    exact hx

namespace Keeps

theorem pure (a : α) : Keeps R (pure a : EStateM ε σ α) :=
  KeepsAt.pure a

theorem throw (e : ε) : Keeps R (throw e : EStateM ε σ α) :=
  KeepsAt.throw e

theorem bind {x : EStateM ε σ α} {f : α → EStateM ε σ β} (hx : Keeps R x)
    (hf : ∀ a, Keeps R (f a)) : Keeps R (x >>= f) :=
  fun s => (hx s).bind fun a s' _ => hf a s'

end Keeps

end

end Rulebook
