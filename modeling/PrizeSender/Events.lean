import PrizeSender.Interleave
import PrizeSender.Trace

/-! The events of a run in an environment, and the calls a program may make. -/

namespace Prog

variable {C : Type} {R : C → Type} {ι σ S α β V : Type} {env : Env C R ι σ S}

/-- The calls of a run with the replies that the environment gives. -/
def events (env : Env C R ι σ S) : Prog C R α → (Nat → ι) → σ → S → List (Event C R)
  | .pure _, _, _, _ => []
  | .call c k, o, l, s =>
    let answer := env (o 0) l s c
    ⟨c, answer.1⟩ :: events env (k answer.1) (fun n => o (n + 1)) answer.2.1 answer.2.2

/-- What the environment would reply at each point of a run. -/
def replies (env : Env C R ι σ S) : Prog C R α → (Nat → ι) → σ → S → Nat → (c : C) → R c
  | .pure _, o, l, s, n, c => (env (o n) l s c).1
  | .call _ _, o, l, s, 0, c => (env (o 0) l s c).1
  | .call c k, o, l, s, n + 1, c' =>
    let answer := env (o 0) l s c
    replies env (k answer.1) (fun n => o (n + 1)) answer.2.1 answer.2.2 n c'

/-- A run is the trace under the replies of its environment. -/
theorem trace_replies (p : Prog C R α) (o : Nat → ι) (l : σ) (s : S) :
    p.trace (p.replies env o l s) = (p.events env o l s, (p.run env o l s).1) := by
  induction p generalizing o l s with
  | pure a => rfl
  | call c k ih =>
    have htail := ih (env (o 0) l s c).1 (fun n => o (n + 1)) (env (o 0) l s c).2.1
      (env (o 0) l s c).2.2
    exact congrArg (fun t => (⟨c, (env (o 0) l s c).1⟩ :: t.1, t.2)) htail

/-- Every call of the program is one that `P` allows. -/
def Calls (P : C → Prop) : Prog C R α → Prop
  | .pure _ => True
  | .call c k => P c ∧ ∀ r, (k r).Calls P

theorem calls_pure {P : C → Prop} {a : α} : (Pure.pure a : Prog C R α).Calls P := trivial

theorem calls_perform {P : C → Prop} {c : C} {k : R c → Prog C R β} (hc : P c)
    (hk : ∀ r, (k r).Calls P) : (perform c >>= k).Calls P := ⟨hc, hk⟩

theorem calls_bind {P : C → Prop} {p : Prog C R α} {f : α → Prog C R β} (hp : p.Calls P)
    (hf : ∀ a, (f a).Calls P) : (p >>= f).Calls P := by
  induction p with
  | pure a => exact hf a
  | call c k ih => exact ⟨hp.1, fun r => ih r (hp.2 r)⟩

theorem calls_mono {P P' : C → Prop} {p : Prog C R α} (hp : p.Calls P) (h : ∀ c, P c → P' c) :
    p.Calls P' := by
  induction p with
  | pure a => trivial
  | call c k ih => exact ⟨h c hp.1, fun r => ih r (hp.2 r)⟩

/-- The program makes these calls in this order, whatever the replies. -/
def Makes : Prog C R α → List C → Prop
  | .pure _, [] => True
  | .call c k, c' :: cs => c = c' ∧ ∀ r, (k r).Makes cs
  | _, _ => False

theorem makes_pure {a : α} : (Pure.pure a : Prog C R α).Makes [] := trivial

theorem makes_perform {c : C} {k : R c → Prog C R β} {cs : List C} (hk : ∀ r, (k r).Makes cs) :
    (perform c >>= k).Makes (c :: cs) := ⟨rfl, hk⟩

theorem makes_calls {P : C → Prop} {p : Prog C R α} {cs : List C} (h : p.Makes cs)
    (hP : ∀ c ∈ cs, P c) : p.Calls P := by
  induction p generalizing cs with
  | pure a => trivial
  | call c k ih =>
    cases cs with
    | nil => exact h.elim
    | cons c' cs =>
      obtain ⟨rfl, hk⟩ := h
      obtain ⟨hc, hcs⟩ := List.forall_mem_cons.mp hP
      exact ⟨hc, fun r => ih r (hk r) hcs⟩

theorem makes_within {p : Prog C R α} {cs : List C} (h : p.Makes cs) : p.Within cs.length := by
  induction p generalizing cs with
  | pure a => trivial
  | call c k ih =>
    cases cs with
    | nil => exact h.elim
    | cons c' cs =>
      obtain ⟨rfl, hk⟩ := h
      exact fun r => ih r (hk r)

/-- What each call changes in the way its event says, the run changes as its
events say. -/
theorem run_view {view : S → V} {act : V → Event C R → V}
    (h : ∀ x l s c, view (env x l s c).2.2 = act (view s) ⟨c, (env x l s c).1⟩)
    (p : Prog C R α) (o : Nat → ι) (l : σ) (s : S) :
    view (p.run env o l s).2.2 = (p.events env o l s).foldl act (view s) := by
  induction p generalizing o l s with
  | pure a => rfl
  | call c k ih => exact (ih _ _ _ _).trans (by rw [h]; rfl)

end Prog
