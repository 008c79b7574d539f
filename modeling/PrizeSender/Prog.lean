import Mathlib.Logic.Function.Basic

/-- A program that reaches its environment only through calls `c : C`, each
answered by a reply in `R c`. -/
inductive Prog (C : Type) (R : C → Type) (α : Type) where
  | pure (a : α)
  | call (c : C) (k : R c → Prog C R α)

/-- An environment answers a call by a choice of its own: it gives the reply,
the caller's private state and the shared state after the call. -/
abbrev Env (C : Type) (R : C → Type) (ι σ S : Type) := ι → σ → S → (c : C) → R c × σ × S

/-- What the other parties may do to the shared state between two calls. -/
structure Interference (S : Type) where
  step : S → S → Prop
  refl : ∀ s, step s s
  trans : ∀ {a b c}, step a b → step b c → step a c

namespace Interference

def alone {S : Type} : Interference S := ⟨(· = ·), fun _ => rfl, fun h g => h.trans g⟩

def keeping {S V : Type} (view : S → V) : Interference S :=
  ⟨fun s s' => view s' = view s, fun _ => rfl, fun h g => g.trans h⟩

end Interference

namespace Prog

variable {C : Type} {R : C → Type} {ι σ S : Type} {α β ε : Type}

def bind (p : Prog C R α) (f : α → Prog C R β) : Prog C R β :=
  match p with
  | .pure a => f a
  | .call c k => .call c (fun r => (k r).bind f)

instance : Monad (Prog C R) where
  pure := Prog.pure
  bind := Prog.bind

theorem pure_then (a : α) (f : α → Prog C R β) : (Pure.pure a >>= f : Prog C R β) = f a := rfl

def perform (c : C) : Prog C R (R c) := .call c .pure

/-- Run a program to its end, the `n`-th call being answered by choice `o n`. -/
def run (env : Env C R ι σ S) : Prog C R α → (Nat → ι) → σ → S → α × σ × S
  | .pure a, _, l, s => (a, l, s)
  | .call c k, o, l, s =>
    let answer := env (o 0) l s c
    run env (k answer.1) (fun n => o (n + 1)) answer.2.1 answer.2.2

/-- A sequence runs its first half and then, on later choices, its second. -/
theorem run_bind (env : Env C R ι σ S) (p : Prog C R α) (f : α → Prog C R β) (o : Nat → ι) (l : σ)
    (s : S) : ∃ o', (p >>= f).run env o l s =
      (f (p.run env o l s).1).run env o' (p.run env o l s).2.1 (p.run env o l s).2.2 := by
  induction p generalizing o l s with
  | pure a => exact ⟨o, rfl⟩
  | call c k ih => exact ih _ _ _ _

theorem run_comap {ι' : Type} {env : Env C R ι σ S} (g : ι' → ι) (p : Prog C R α) (o : Nat → ι')
    (l : σ) (s : S) : p.run (fun y => env (g y)) o l s = p.run env (fun n => g (o n)) l s := by
  induction p generalizing o l s with
  | pure a => rfl
  | call c k ih => exact ih _ _ _ _

/-- Every run from these states, under every interference, ends in `Q`. -/
def wp (env : Env C R ι σ S) (rely : Interference S) :
    Prog C R α → (α → σ → S → Prop) → σ → S → Prop
  | .pure a, Q, l, s => ∀ s', rely.step s s' → Q a l s'
  | .call c k, Q, l, s => ∀ s', rely.step s s' → ∀ x,
    wp env rely (k (env x l s' c).1) Q (env x l s' c).2.1 (env x l s' c).2.2

variable {env : Env C R ι σ S} {rely : Interference S}
variable {p : Prog C R α} {Q Q' : α → σ → S → Prop} {l : σ} {s s' : S}

theorem wp_mono (h : p.wp env rely Q l s) (hq : ∀ a l s, Q a l s → Q' a l s) :
    p.wp env rely Q' l s := by
  induction p generalizing l s with
  | pure a => exact fun s' hs => hq _ _ _ (h s' hs)
  | call c k ih => exact fun s' hs x => ih _ (h s' hs x)

theorem wp_stable (h : p.wp env rely Q l s) (hs : rely.step s s') : p.wp env rely Q l s' := by
  cases p with
  | pure a => exact fun t ht => h t (rely.trans hs ht)
  | call c k => exact fun t ht => h t (rely.trans hs ht)

theorem wp_bind {f : α → Prog C R β} {Q : β → σ → S → Prop}
    (h : p.wp env rely (fun a l s => (f a).wp env rely Q l s) l s) :
    (p >>= f).wp env rely Q l s := by
  induction p generalizing l s with
  | pure a => exact h s (rely.refl s)
  | call c k ih => exact fun s' hs x => ih _ (h s' hs x)

/-- A run under no interference meets every postcondition proved under some. -/
theorem run_of_wp (h : p.wp env rely Q l s) (o : Nat → ι) :
    Q (p.run env o l s).1 (p.run env o l s).2.1 (p.run env o l s).2.2 := by
  induction p generalizing l s o with
  | pure a => exact h s (rely.refl s)
  | call c k ih => exact ih _ (h s (rely.refl s) (o 0)) _

theorem run_keeps {I : σ → S → Prop} {o : Nat → ι}
    (step : ∀ n l s c, I l s → I (env (o n) l s c).2.1 (env (o n) l s c).2.2)
    (p : Prog C R α) (h : I l s) : I (p.run env o l s).2.1 (p.run env o l s).2.2 := by
  induction p generalizing l s o with
  | pure a => exact h
  | call c k ih => exact ih _ (fun n => step (n + 1)) (step 0 l s c h)

/-! Programs that may throw. -/

/-- A call inside a program that may throw. -/
def lift (c : C) : ExceptT ε (Prog C R) (R c) := ExceptT.lift (perform c)

theorem wp_throw {e : ε} {Q : Except ε α → σ → S → Prop}
    (h : ∀ s', rely.step s s' → Q (.error e) l s') :
    (throw e : ExceptT ε (Prog C R) α).run.wp env rely Q l s := h

theorem wp_return {a : α} {Q : Except ε α → σ → S → Prop}
    (h : ∀ s', rely.step s s' → Q (.ok a) l s') :
    (Pure.pure a : ExceptT ε (Prog C R) α).run.wp env rely Q l s := h

/-- The postcondition of the first half of a sequence: what is thrown skips
the second half. -/
def andThen (env : Env C R ι σ S) (rely : Interference S) (f : α → ExceptT ε (Prog C R) β)
    (Q : Except ε β → σ → S → Prop) : Except ε α → σ → S → Prop
  | .ok a => fun l s => (f a).run.wp env rely Q l s
  | .error e => fun l s => ∀ s', rely.step s s' → Q (.error e) l s'

theorem wp_seq {x : ExceptT ε (Prog C R) α} {f : α → ExceptT ε (Prog C R) β}
    {Q : Except ε β → σ → S → Prop}
    (h : x.run.wp env rely (andThen env rely f Q) l s) :
    (x >>= f).run.wp env rely Q l s := by
  apply wp_bind (p := x.run) (f := ExceptT.bindCont f)
  apply wp_mono h
  intro r l s hr
  cases r with
  | ok a => exact hr
  | error e => exact hr

theorem wp_lift {c : C} {f : R c → ExceptT ε (Prog C R) β} {Q : Except ε β → σ → S → Prop}
    (h : ∀ s', rely.step s s' → ∀ x,
      (f (env x l s' c).1).run.wp env rely Q (env x l s' c).2.1 (env x l s' c).2.2) :
    (lift c >>= f).run.wp env rely Q l s := h

/-- A call that neither reads nor writes the shared state needs no look at
what the others did before it. -/
theorem wp_lift_private {c : C} {f : R c → ExceptT ε (Prog C R) β}
    {Q : Except ε β → σ → S → Prop} (reply : ι → R c) (own : ι → σ)
    (quiet : ∀ x t, env x l t c = (reply x, own x, t))
    (h : ∀ x, (f (reply x)).run.wp env rely Q (own x) s) :
    (lift c >>= f).run.wp env rely Q l s := by
  apply wp_lift
  intro s' hs x
  rw [quiet]
  exact wp_stable (h x) hs

end Prog
