import Mathlib.Data.List.Forall2

/-!
# Stateful computations that may throw

`Act σ ε α` reads and writes a state `σ` and returns an `α` or throws an `ε`; what it did to the
state before a throw stays done. `exec` runs it. `wp x Q s` says that running `x` from `s` ends in
a result and a state that satisfy `Q`.

A `Log` says how a list of effects takes a state to another. `Emits L x Q s` says that `x`, run from
`s`, has some effects `out`, and that its result and `out` satisfy `Q`. Its rules compose the
effects of the parts of a computation.

Results:
* `wp_bind`, `wp_tryCatch`: the exact preconditions of sequencing and of exception handling.
* **`Emits.bind`**, **`Emits.tryCatch`**: the same rules for effects.
-/

namespace GradidoConnector.Base

/-- A computation over the state `σ` that may throw `ε`. -/
abbrev Act (σ ε : Type) := ExceptT ε (StateM σ)

namespace Act

variable {σ τ ε α β : Type}

/-- The result of `x` and the state it leaves when run from `s`. -/
def exec (x : Act σ ε α) (s : σ) : Except ε α × σ := x.run s

/-- Return or throw an answer. -/
def answer : Except ε α → Act σ ε α
  | .ok a => pure a
  | .error e => throw e

/-- Run a computation over a part of the state. -/
def within (part : τ → σ) (put : σ → τ → τ) (x : Act σ ε α) : Act τ ε α :=
  fun t => let r := exec x (part t); (r.1, put r.2 t)

variable {x : Act σ ε α} {f : α → Act σ ε β} {s : σ}

@[simp] theorem exec_pure (a : α) : exec (pure a : Act σ ε α) s = (.ok a, s) := rfl

@[simp] theorem exec_throw (e : ε) : exec (throw e : Act σ ε α) s = (.error e, s) := rfl

@[simp] theorem exec_get : exec (get : Act σ ε σ) s = (.ok s, s) := rfl

@[simp] theorem exec_set (t : σ) : exec (set t : Act σ ε PUnit) s = (.ok ⟨⟩, t) := rfl

@[simp] theorem exec_modify (g : σ → σ) :
    exec (modify g : Act σ ε PUnit) s = (.ok ⟨⟩, g s) := rfl

@[simp] theorem exec_answer (a : Except ε α) : exec (answer a : Act σ ε α) s = (a, s) := by
  cases a <;> rfl

@[simp] theorem exec_within (part : τ → σ) (put : σ → τ → τ) (t : τ) :
    exec (within part put x) t = ((exec x (part t)).1, put (exec x (part t)).2 t) := rfl

theorem exec_bind :
    exec (x >>= f) s =
      match exec x s with
      | (.ok a, t) => exec (f a) t
      | (.error e, t) => (.error e, t) := by
  simp only [exec, ExceptT.run, bind, ExceptT.bind, ExceptT.mk, ExceptT.bindCont, StateT.bind]
  rcases x s with ⟨_ | _, t⟩ <;> rfl

/-- A sequence that returns has returned from its first part. -/
theorem of_exec_bind {b : β} {t : σ} (h : exec (x >>= f) s = (.ok b, t)) :
    ∃ a u, exec x s = (.ok a, u) ∧ exec (f a) u = (.ok b, t) := by
  rw [exec_bind] at h
  cases hx : exec x s with
  | mk r u =>
    rw [hx] at h
    cases r with
    | error e => cases h
    | ok a => exact ⟨a, u, rfl, h⟩

theorem exec_tryCatch {h : ε → Act σ ε α} :
    exec (tryCatch x h) s =
      match exec x s with
      | (.ok a, t) => (.ok a, t)
      | (.error e, t) => exec (h e) t := by
  simp only [exec, ExceptT.run, tryCatch, tryCatchThe, MonadExceptOf.tryCatch, ExceptT.tryCatch,
    ExceptT.mk, bind, StateT.bind]
  rcases x s with ⟨_ | _, t⟩ <;> rfl

/-- A part of the state that reads back what was put there sequences like the whole. -/
theorem within_bind {part : τ → σ} {put : σ → τ → τ} (hpart : ∀ s t, part (put s t) = s)
    (hput : ∀ s s' t, put s (put s' t) = put s t) :
    within part put (x >>= f) = within part put x >>= fun a => within part put (f a) := by
  funext t
  show exec (within part put (x >>= f)) t =
    exec (within part put x >>= fun a => within part put (f a)) t
  rw [exec_within, exec_bind, exec_bind, exec_within]
  cases exec x (part t) with
  | mk r u =>
    cases r with
    | error e => rfl
    | ok a => simp only [exec_within, hpart, hput]

/-! ## Answers -/

/-- A sequence of two answers is a value where both are. -/
theorem bind_eq_ok {a : Except ε α} {f : α → Except ε β} {v : β} :
    a >>= f = .ok v ↔ ∃ u, a = .ok u ∧ f u = .ok v := by
  cases a with
  | error e => simp [bind, Except.bind]
  | ok u => simp [bind, Except.bind]

/-- A sequence of two answers is a value where the second is one after the first. -/
theorem exists_bind_eq_ok {a : Except ε α} {f : α → Except ε β} :
    (∃ v, a >>= f = .ok v) ↔ ∃ u, a = .ok u ∧ ∃ v, f u = .ok v := by
  simp only [bind_eq_ok]
  exact ⟨fun ⟨v, u, hu, hv⟩ => ⟨u, hu, v, hv⟩, fun ⟨u, hu, v, hv⟩ => ⟨v, u, hu, hv⟩⟩

/-- A list of answers is a value where each of them is. -/
theorem exists_mapM_eq_ok {f : α → Except ε β} {l : List α} :
    (∃ vs, l.mapM f = .ok vs) ↔ ∀ a ∈ l, ∃ v, f a = .ok v := by
  induction l with
  | nil => simp [pure, Except.pure]
  | cons a l ih =>
    rw [List.mapM_cons, exists_bind_eq_ok, List.forall_mem_cons, ← ih]
    constructor
    · rintro ⟨v, hv, h⟩
      obtain ⟨vs, hvs, -⟩ := exists_bind_eq_ok.mp h
      exact ⟨⟨v, hv⟩, vs, hvs⟩
    · rintro ⟨⟨v, hv⟩, vs, hvs⟩
      exact ⟨v, hv, exists_bind_eq_ok.mpr ⟨vs, hvs, _, rfl⟩⟩

/-- A list of answers that is a value has a value for each of its elements. -/
theorem forall₂_of_mapM {f : α → Except ε β} {l : List α} {vs : List β}
    (h : l.mapM f = .ok vs) : List.Forall₂ (fun a v => f a = .ok v) l vs := by
  induction l generalizing vs with
  | nil =>
    rw [List.mapM_nil] at h
    cases h
    exact .nil
  | cons a l ih =>
    rw [List.mapM_cons] at h
    obtain ⟨v, hv, h⟩ := bind_eq_ok.mp h
    obtain ⟨rest, hrest, h⟩ := bind_eq_ok.mp h
    cases h
    exact .cons hv (ih hrest)

/-- The values are related to the elements where each of them is. -/
theorem exists_mapM_forall₂ {f : α → Except ε β} {R : α → β → Prop} {l : List α} :
    (∃ vs, l.mapM f = .ok vs ∧ List.Forall₂ R l vs) ↔ ∀ a ∈ l, ∃ v, f a = .ok v ∧ R a v := by
  induction l with
  | nil => simp [pure, Except.pure]
  | cons a l ih =>
    rw [List.forall_mem_cons, ← ih]
    constructor
    · rintro ⟨_, h, hall⟩
      rw [List.mapM_cons] at h
      obtain ⟨v, hv, h⟩ := bind_eq_ok.mp h
      obtain ⟨vs, hvs, h⟩ := bind_eq_ok.mp h
      cases h
      cases hall with
      | cons hhead hrest => exact ⟨⟨v, hv, hhead⟩, vs, hvs, hrest⟩
    · rintro ⟨⟨v, hv, hhead⟩, vs, hvs, hrest⟩
      refine ⟨v :: vs, ?_, .cons hhead hrest⟩
      rw [List.mapM_cons]
      exact bind_eq_ok.mpr ⟨v, hv, bind_eq_ok.mpr ⟨vs, hvs, rfl⟩⟩

/-- The value of an element of the list. -/
theorem getElem?_of_mapM {f : α → Except ε β} {l : List α} {vs : List β} {i : Nat} {a : α}
    (h : l.mapM f = .ok vs) (hi : l[i]? = some a) : ∃ v, vs[i]? = some v ∧ f a = .ok v := by
  have hall := forall₂_of_mapM h
  obtain ⟨hlt, rfl⟩ := List.getElem?_eq_some_iff.mp hi
  have hlt' : i < vs.length := hall.length_eq ▸ hlt
  exact ⟨vs[i], List.getElem?_eq_getElem hlt', hall.get hlt hlt'⟩

/-! ## Preconditions -/

/-- Running `x` from `s` ends in a result and a state that satisfy `Q`. -/
def wp (x : Act σ ε α) (Q : Except ε α → σ → Prop) (s : σ) : Prop := Q (exec x s).1 (exec x s).2

variable {Q R : Except ε α → σ → Prop}

theorem wp_answer {a : Except ε α} : wp (answer a) Q s ↔ Q a s := by rw [wp, exec_answer]

theorem wp_bind {Q : Except ε β → σ → Prop} :
    wp (x >>= f) Q s ↔
      wp x (fun r t => match r with
        | .ok a => wp (f a) Q t
        | .error e => Q (.error e) t) s := by
  unfold wp
  rw [exec_bind]
  rcases exec x s with ⟨_ | _, t⟩ <;> rfl

theorem wp_tryCatch {h : ε → Act σ ε α} :
    wp (tryCatch x h) Q s ↔
      wp x (fun r t => match r with
        | .ok a => Q (.ok a) t
        | .error e => wp (h e) Q t) s := by
  unfold wp
  rw [exec_tryCatch]
  rcases exec x s with ⟨_ | _, t⟩ <;> rfl

theorem wp_mono (h : wp x R s) (himp : ∀ r t, R r t → Q r t) : wp x Q s := himp _ _ h

/-! ## Effects -/

/-- How a list of effects takes one state to another, compatible with appending. -/
structure Log (σ τ : Type) where
  Steps : σ → List τ → σ → Prop
  nil : ∀ s, Steps s [] s
  append : ∀ {s t u a b}, Steps s a t → Steps t b u → Steps s (a ++ b) u

/-- `x`, run from `s`, has some effects `out`, and its result and `out` satisfy `Q`. -/
def Emits (L : Log σ τ) (x : Act σ ε α) (Q : Except ε α → List τ → Prop) (s : σ) : Prop :=
  wp x (fun r t => ∃ out, L.Steps s out t ∧ Q r out) s

namespace Emits

variable {L : Log σ τ} {Q R : Except ε α → List τ → Prop}

theorem pure {a : α} (h : Q (.ok a) []) : Emits L (pure a) Q s := ⟨[], L.nil s, h⟩

theorem throw {e : ε} (h : Q (.error e) []) : Emits L (throw e) Q s := ⟨[], L.nil s, h⟩

theorem answer {a : Except ε α} (h : Q a []) : Emits L (answer a) Q s :=
  wp_answer.mpr ⟨[], L.nil s, h⟩

theorem mono (h : Emits L x R s) (himp : ∀ r out, R r out → Q r out) : Emits L x Q s :=
  wp_mono h fun r _ ⟨out, ht, hr⟩ => ⟨out, ht, himp r out hr⟩

/-- What is known of the result is the result. -/
theorem result (h : Emits L x Q s) : Emits L x (fun r out => r = (exec x s).1 ∧ Q r out) s :=
  match h with
  | ⟨out, ht, hq⟩ => ⟨out, ht, rfl, hq⟩

/-- Reading the state has no effect. -/
theorem get_bind {f : σ → Act σ ε α} (h : Emits L (f s) Q s) : Emits L (get >>= f) Q s := h

/-- **Sequencing** with the run of the first part at hand. -/
theorem bind_exec {Q : Except ε β → List τ → Prop} (h : Emits L x R s)
    (hok : ∀ a out t, exec x s = (.ok a, t) → L.Steps s out t → R (.ok a) out →
      Emits L (f a) (fun r out' => Q r (out ++ out')) t)
    (herr : ∀ e out, R (.error e) out → Q (.error e) out) : Emits L (x >>= f) Q s := by
  obtain ⟨out, ht, hr⟩ := h
  rw [Emits, wp_bind, wp]
  cases hx : exec x s with
  | mk r t =>
    rw [hx] at ht hr
    cases r with
    | ok a =>
      exact wp_mono (hok a out t hx ht hr) fun r u ⟨out', hu, hq⟩ => ⟨out ++ out', L.append ht hu, hq⟩
    | error e => exact ⟨out, ht, herr e out hr⟩

/-- **Sequencing**: the second part has its effects after the first, or the first throws. -/
theorem bind {Q : Except ε β → List τ → Prop} (h : Emits L x R s)
    (hok : ∀ a out t, L.Steps s out t → R (.ok a) out →
      Emits L (f a) (fun r out' => Q r (out ++ out')) t)
    (herr : ∀ e out, R (.error e) out → Q (.error e) out) : Emits L (x >>= f) Q s :=
  h.bind_exec (fun a out t _ ht hr => hok a out t ht hr) herr

/-- **Exception handling**: the handler has its effects after those of the guarded part. -/
theorem tryCatch {h : ε → Act σ ε α} (hx : Emits L x R s)
    (hok : ∀ a out, R (.ok a) out → Q (.ok a) out)
    (herr : ∀ e out t, R (.error e) out → Emits L (h e) (fun r out' => Q r (out ++ out')) t) :
    Emits L (tryCatch x h) Q s := by
  refine wp_tryCatch.mpr (wp_mono hx fun r t ⟨out, ht, hr⟩ => ?_)
  cases r with
  | ok a => exact ⟨out, ht, hok a out hr⟩
  | error e =>
    exact wp_mono (herr e out t hr) fun r u ⟨out', hu, hq⟩ => ⟨out ++ out', L.append ht hu, hq⟩

end Emits

/-! ### One property of all effects -/

section All

variable {L : Log σ τ} {P : τ → Prop} {K : Except ε α → Prop}

/-- What holds of the effects of either part holds of those of the sequence. `K` is what is known of
the first result. -/
theorem Emits.bind_all (h : Emits L x (fun r out => K r ∧ ∀ e ∈ out, P e) s)
    (hf : ∀ a t, K (.ok a) → Emits L (f a) (fun _ out => ∀ e ∈ out, P e) t) :
    Emits L (x >>= f) (fun _ out => ∀ e ∈ out, P e) s := by
  refine h.bind (fun a out t _ hr => (hf a t hr.1).mono fun _ out' hout' e he => ?_)
    fun _ _ hr => hr.2
  rcases List.mem_append.mp he with he | he
  · exact hr.2 e he
  · exact hout' e he

/-- The same where nothing is known of the first result. -/
theorem Emits.seq_all (h : Emits L x (fun _ out => ∀ e ∈ out, P e) s)
    (hf : ∀ a t, Emits L (f a) (fun _ out => ∀ e ∈ out, P e) t) :
    Emits L (x >>= f) (fun _ out => ∀ e ∈ out, P e) s :=
  Emits.bind_all (K := fun _ => True) (h.mono fun _ _ hall => ⟨trivial, hall⟩) fun a t _ => hf a t

theorem Emits.tryCatch_all {h : ε → Act σ ε α} (hx : Emits L x (fun _ out => ∀ e ∈ out, P e) s)
    (hh : ∀ e t, Emits L (h e) (fun _ out => ∀ e ∈ out, P e) t) :
    Emits L (MonadExcept.tryCatch x h) (fun _ out => ∀ e ∈ out, P e) s := by
  refine hx.tryCatch (fun _ _ hr => hr) fun e out t hr => (hh e t).mono fun _ out' hout' e he => ?_
  rcases List.mem_append.mp he with he | he
  · exact hr e he
  · exact hout' e he

theorem Emits.pure_all {a : α} :
    Emits L (Pure.pure a : Act σ ε α) (fun _ out => ∀ e ∈ out, P e) s :=
  Emits.pure fun _ he => absurd he List.not_mem_nil

theorem Emits.throw_all {e : ε} :
    Emits L (MonadExcept.throw e : Act σ ε α) (fun _ out => ∀ e ∈ out, P e) s :=
  Emits.throw fun _ he => absurd he List.not_mem_nil

theorem Emits.answer_all {a : Except ε α} :
    Emits L (Act.answer a : Act σ ε α) (fun _ out => ∀ e ∈ out, P e) s :=
  Emits.answer fun _ he => absurd he List.not_mem_nil

end All

/-! ### One property of every list of effects -/

/-- The property holds of no effects, and of two lists one after the other if it holds of both. -/
structure Additive (P : List τ → Prop) : Prop where
  nil : P []
  append : ∀ {a b}, P a → P b → P (a ++ b)

theorem additive_all (P : τ → Prop) : Additive fun out => ∀ e ∈ out, P e where
  nil _ he := absurd he List.not_mem_nil
  append ha hb e he := (List.mem_append.mp he).elim (ha e) (hb e)

/-- Each effect stands in the relation to those before it. -/
def Preceded (R : List τ → τ → Prop) (out : List τ) : Prop :=
  ∀ before e after, out = before ++ e :: after → R before e

/-- What came before may grow. -/
theorem additive_preceded {R : List τ → τ → Prop}
    (hR : ∀ first before e, R before e → R (first ++ before) e) : Additive (Preceded R) where
  nil before e after h := absurd h.symm (by simp)
  append {a b} ha hb before e after h := by
    rcases List.append_eq_append_iff.mp h with ⟨rest, rfl, hrest⟩ | ⟨rest, hsplit, hrest⟩
    · exact hR a rest e (hb rest e after hrest)
    · cases rest with
      | nil =>
        rw [List.append_nil] at hsplit
        subst hsplit
        have hhead := hR a [] e (hb [] e after hrest.symm)
        rwa [List.append_nil] at hhead
      | cons x rest =>
        cases hrest
        exact ha before e rest hsplit

namespace Additive

variable {L : Log σ τ} {P : List τ → Prop} {K : Except ε α → Prop} (hP : Additive P)
include hP

/-- **Sequencing**; `K` is what is known of the first result. -/
theorem bind (h : Emits L x (fun r out => K r ∧ P out) s)
    (hf : ∀ a t, K (.ok a) → Emits L (f a) (fun _ out => P out) t) :
    Emits L (x >>= f) (fun _ out => P out) s :=
  Emits.bind h (fun a _ t _ hr => (hf a t hr.1).mono fun _ _ hout => hP.append hr.2 hout)
    fun _ _ hr => hr.2

theorem seq (h : Emits L x (fun _ out => P out) s)
    (hf : ∀ a t, Emits L (f a) (fun _ out => P out) t) :
    Emits L (x >>= f) (fun _ out => P out) s :=
  hP.bind (K := fun _ => True) (h.mono fun _ _ hout => ⟨trivial, hout⟩) fun a t _ => hf a t

/-- **Exception handling.** -/
theorem tryCatch {h : ε → Act σ ε α} (hx : Emits L x (fun _ out => P out) s)
    (hh : ∀ e t, Emits L (h e) (fun _ out => P out) t) :
    Emits L (MonadExcept.tryCatch x h) (fun _ out => P out) s :=
  Emits.tryCatch hx (fun _ _ hr => hr) fun e _ t hr => (hh e t).mono fun _ _ => hP.append hr

theorem pure {a : α} : Emits L (Pure.pure a : Act σ ε α) (fun _ out => P out) s := Emits.pure hP.nil

theorem throw {e : ε} : Emits L (MonadExcept.throw e : Act σ ε α) (fun _ out => P out) s :=
  Emits.throw hP.nil

theorem answer {a : Except ε α} : Emits L (Act.answer a : Act σ ε α) (fun _ out => P out) s :=
  Emits.answer hP.nil

end Additive

end Act

end GradidoConnector.Base
