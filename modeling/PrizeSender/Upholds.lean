import PrizeSender.Interleave
import PrizeSender.Trace

/-! Programs that keep an invariant of the shared state, each call relying on
nothing but the invariant. -/

namespace Prog

variable {C : Type} {R : C → Type} {ι κ σ S α β : Type} {env : Env C R ι σ S} {I : S → Prop}

/-- Every call keeps `I`, whatever the state with `I` it is made in, and the
program ends in `Q`. -/
def Upholds (env : Env C R ι σ S) (I : S → Prop) : Prog C R α → (α → σ → Prop) → σ → Prop
  | .pure a, Q, l => Q a l
  | .call c k, Q, l => ∀ s, I s → ∀ x,
    I (env x l s c).2.2 ∧ (k (env x l s c).1).Upholds env I Q (env x l s c).2.1

variable {p : Prog C R α} {Q Q' : α → σ → Prop} {l : σ}

theorem upholds_mono (h : p.Upholds env I Q l) (hq : ∀ a l, Q a l → Q' a l) :
    p.Upholds env I Q' l := by
  induction p generalizing l with
  | pure a => exact hq _ _ h
  | call c k ih =>
    intro s hs x
    obtain ⟨hkeep, hrest⟩ := h s hs x
    exact ⟨hkeep, ih _ hrest⟩

theorem upholds_bind {f : α → Prog C R β} {Q : β → σ → Prop}
    (h : p.Upholds env I (fun a l => (f a).Upholds env I Q l) l) : (p >>= f).Upholds env I Q l := by
  induction p generalizing l with
  | pure a => exact h
  | call c k ih =>
    intro s hs x
    obtain ⟨hkeep, hrest⟩ := h s hs x
    exact ⟨hkeep, ih _ hrest⟩

/-- What is known of every trace of a program holds when its calls are harmless. -/
theorem upholds_of_trace {P : C → Prop} {Q : α → Prop}
    (keep : ∀ c, P c → ∀ x l s, I s → I (env x l s c).2.2)
    (h : ∀ o, (∀ e ∈ (p.trace o).1, P e.1) ∧ Q (p.trace o).2) (hr : ∀ c, Nonempty (R c)) :
    p.Upholds env I (fun a _ => Q a) l := by
  classical
  induction p generalizing l with
  | pure a => exact (h fun _ c => (hr c).some).2
  | call c k ih =>
    have hrest : ∀ (r : R c) o, P c ∧ (∀ e ∈ ((k r).trace o).1, P e.1) ∧ Q ((k r).trace o).2 := by
      intro r o
      -- the replies that begin with `r`
      let first : (c' : C) → R c' := Function.update (fun c' => (hr c').some) c r
      have hfirst : first c = r := Function.update_self _ _ _
      have htrace : (Prog.call c k).trace (fun n => Nat.casesOn n first o) =
          (⟨c, r⟩ :: ((k r).trace o).1, ((k r).trace o).2) := by
        change ((⟨c, first c⟩ : Event C R) :: ((k (first c)).trace o).1,
          ((k (first c)).trace o).2) = _
        rw [hfirst]
      obtain ⟨hcalls, hq⟩ := h fun n => Nat.casesOn n first o
      rw [htrace] at hcalls hq
      exact ⟨hcalls _ List.mem_cons_self, fun e he => hcalls e (List.mem_cons_of_mem _ he), hq⟩
    intro s hs x
    exact ⟨keep c (hrest (hr c).some fun _ c => (hr c).some).1 x l s hs,
      ih _ fun o => (hrest _ o).2⟩

/-- The invariant is kept by any number of threads that each uphold it. -/
theorem interleave_upholds [DecidableEq κ] {env : κ → Env C R ι σ S} {Q : κ → α → σ → Prop}
    {p : Pool C R κ σ S α} (schedule : List (κ × ι))
    (h : ∀ i, (p.threads i).prog.Upholds (env i) I (Q i) (p.threads i).own) (hI : I p.shared) :
    I (p.interleave env schedule).shared := by
  induction schedule generalizing p with
  | nil => exact hI
  | cons x schedule ih =>
    have hstep : (∀ i, ((p.step env x.1 x.2).threads i).prog.Upholds (env i) I (Q i)
        ((p.step env x.1 x.2).threads i).own) ∧ I (p.step env x.1 x.2).shared := by
      unfold Pool.step
      split
      next => exact ⟨h, hI⟩
      next c k hp =>
        have hx := h x.1
        rw [hp] at hx
        obtain ⟨hkeep, hrest⟩ := hx p.shared hI x.2
        refine ⟨fun i => ?_, hkeep⟩
        by_cases hi : i = x.1
        · subst hi
          simpa only [Function.update_self] using hrest
        · simpa only [Function.update_of_ne hi] using h i
    exact ih hstep.1 hstep.2

end Prog
