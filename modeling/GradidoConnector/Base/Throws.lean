import GradidoConnector.Base.Act

/-!
# What a computation may throw

`Throws x P` says that `x` throws nothing but exceptions that satisfy `P`, whatever state it runs
from, and `Returns x R` that it returns nothing but values that satisfy `R`. Their rules follow the
way the computation is written.

Results: **`Throws.bind`**, **`Throws.bind_of`**, **`Throws.tryCatch`**: a sequence throws what its
parts throw, where the second knows what the first returns, and a handled computation what its
handler throws.
-/

namespace GradidoConnector.Base.Act

variable {σ τ ε α β : Type}

/-- Every exception that `x` throws satisfies `P`. -/
def Throws (x : Act σ ε α) (P : ε → Prop) : Prop := ∀ s e, (exec x s).1 = .error e → P e

/-- Every value that `x` returns satisfies `R`. -/
def Returns (x : Act σ ε α) (R : α → Prop) : Prop := ∀ s a, (exec x s).1 = .ok a → R a

namespace Returns

variable {x : Act σ ε α} {f : α → Act σ ε β}

theorem pure {R : α → Prop} {a : α} (h : R a) : Returns (Pure.pure a : Act σ ε α) R := by
  intro s a' ha
  cases ha
  exact h

theorem throw {R : α → Prop} (e : ε) : Returns (MonadExcept.throw e : Act σ ε α) R :=
  fun _ _ h => by cases h

theorem bind {R : β → Prop} (hf : ∀ a, Returns (f a) R) : Returns (x >>= f) R := by
  intro s c hc
  rw [exec_bind] at hc
  rcases hrun : exec x s with ⟨e | a, t⟩
  · rw [hrun] at hc
    cases hc
  · rw [hrun] at hc
    exact hf a t c hc

/-- The second part may rely on what the first returned. -/
theorem bind_of {R : α → Prop} {R' : β → Prop} (hx : Returns x R) (hf : ∀ a, R a → Returns (f a) R') :
    Returns (x >>= f) R' := by
  intro s c hc
  rw [exec_bind] at hc
  have hfirst := hx s
  rcases hrun : exec x s with ⟨e | a, t⟩
  · rw [hrun] at hc
    cases hc
  · rw [hrun] at hc hfirst
    exact hf a (hfirst a rfl) t c hc

end Returns

namespace Throws

variable {x : Act σ ε α} {f : α → Act σ ε β} {P Q : ε → Prop}

theorem pure (a : α) : Throws (Pure.pure a : Act σ ε α) P := fun _ _ h => by cases h

theorem throw {e : ε} (h : P e) : Throws (MonadExcept.throw e : Act σ ε α) P := by
  intro s e' he
  cases he
  exact h

theorem answer {a : Except ε α} (h : ∀ e, a = .error e → P e) :
    Throws (Act.answer a : Act σ ε α) P := by
  intro s e he
  rw [exec_answer] at he
  exact h e he

theorem get : Throws (MonadState.get : Act σ ε σ) P := fun _ _ h => by cases h

theorem set (s : σ) : Throws (MonadStateOf.set s : Act σ ε PUnit) P := fun _ _ h => by cases h

theorem modify (g : σ → σ) : Throws (modify g : Act σ ε PUnit) P := fun _ _ h => by cases h

theorem mono (hx : Throws x P) (h : ∀ e, P e → Q e) : Throws x Q := fun s e he => h e (hx s e he)

/-- **Sequencing**, where the second part relies on what the first returned. -/
theorem bind_of {R : α → Prop} (hx : Throws x P) (hr : Returns x R) (hf : ∀ a, R a → Throws (f a) P) :
    Throws (x >>= f) P := by
  intro s e he
  rw [exec_bind] at he
  have hfirst := hx s
  have hvalue := hr s
  cases hrun : exec x s with
  | mk r t =>
    rw [hrun] at he hfirst hvalue
    cases r with
    | error e' =>
      cases he
      exact hfirst e rfl
    | ok a => exact hf a (hvalue a rfl) t e he

/-- **Sequencing.** -/
theorem bind (hx : Throws x P) (hf : ∀ a, Throws (f a) P) : Throws (x >>= f) P :=
  bind_of hx (R := fun _ => True) (fun _ _ _ => trivial) fun a _ => hf a

/-- **Exception handling**: what is thrown is thrown by the handler. -/
theorem tryCatch {h : ε → Act σ ε α} (hx : Throws x Q) (hh : ∀ e, Q e → Throws (h e) P) :
    Throws (MonadExcept.tryCatch x h) P := by
  intro s e he
  rw [exec_tryCatch] at he
  have hfirst := hx s
  cases hrun : exec x s with
  | mk r t =>
    rw [hrun] at he hfirst
    cases r with
    | error e' => exact hh e' (hfirst e' rfl) t e he
    | ok a => cases he

theorem within {part : τ → σ} {put : σ → τ → τ} (hx : Throws x P) :
    Throws (Act.within part put x) P := by
  intro t e he
  rw [exec_within] at he
  exact hx (part t) e he

end Throws

end GradidoConnector.Base.Act
