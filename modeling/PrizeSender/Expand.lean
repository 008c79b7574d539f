import PrizeSender.Events
import PrizeSender.Interleave

/-! Programs whose calls are carried out by other programs. -/

namespace Prog

variable {C C' : Type} {R : C → Type} {R' : C' → Type} {ι σ S α β : Type}
variable {env : Env C' R' ι σ S} {rely : Interference S} {h : (c : C) → Prog C' R' (R c)}

/-- The program with each of its calls carried out by another. -/
def expand (h : (c : C) → Prog C' R' (R c)) : Prog C R α → Prog C' R' α
  | .pure a => .pure a
  | .call c k => h c >>= fun r => (k r).expand h

theorem then_assoc {γ : Type} (p : Prog C R α) (f : α → Prog C R β) (g : β → Prog C R γ) :
    p >>= f >>= g = p >>= fun a => f a >>= g := by
  induction p with
  | pure a => rfl
  | call c k ih => exact congrArg (Prog.call c) (funext fun r => ih r)

theorem expand_bind (p : Prog C R α) (f : α → Prog C R β) :
    (p >>= f).expand h = p.expand h >>= fun a => (f a).expand h := by
  induction p with
  | pure a => rfl
  | call c k ih =>
    have hcall : (Prog.call c k >>= f).expand h = h c >>= fun r => (k r >>= f).expand h := rfl
    rw [hcall, funext ih, ← then_assoc]
    rfl

theorem within_expand {p : Prog C R α} {n m : Nat} (hp : p.Within n) (hh : ∀ c, (h c).Within m) :
    (p.expand h).Within (n * m) := by
  induction p generalizing n with
  | pure a => trivial
  | call c k ih =>
    cases n with
    | zero => exact hp.elim
    | succ n =>
      rw [Nat.succ_mul, Nat.add_comm]
      exact within_bind (hh c) fun r => ih r (hp r)

theorem wp_and {p : Prog C' R' α} {Q Q' : α → σ → S → Prop} {l : σ} {s : S}
    (hq : p.wp env rely Q l s) (hq' : p.wp env rely Q' l s) :
    p.wp env rely (fun a l s => Q a l s ∧ Q' a l s) l s := by
  induction p generalizing l s with
  | pure a => exact fun s' hs => ⟨hq s' hs, hq' s' hs⟩
  | call c k ih => exact fun s' hs x => ih _ (hq s' hs x) (hq' s' hs x)

/-- An expanded run is a trace of the program: where `K` follows the events and
is kept by what carries out each call, it holds of the trace. -/
theorem wp_expand [DecidableEq C] (blank : (c : C) → R c) {K : List (Event C R) → σ → S → Prop}
    (stable : ∀ {es l s s'}, K es l s → rely.step s s' → K es l s')
    (step : ∀ {es l s} c, K es l s →
      (h c).wp env rely (fun r l s => K (es ++ [⟨c, r⟩]) l s) l s)
    (p : Prog C R α) {es : List (Event C R)} {l : σ} {s : S} (hk : K es l s) :
    (p.expand h).wp env rely
      (fun a l s => ∃ o, (p.trace o).2 = a ∧ K (es ++ (p.trace o).1) l s) l s := by
  induction p generalizing es l s with
  | pure a =>
    intro s' hs
    exact ⟨fun _ => blank, rfl, by simpa [trace] using stable hk hs⟩
  | call c k ih =>
    apply wp_bind
    apply wp_mono (step c hk)
    intro r l s hr
    apply wp_mono (ih r hr)
    rintro a l s ⟨o, ha, hk⟩
    let first : Nat → (c : C) → R c
      | 0 => Function.update blank c r
      | n + 1 => o n
    have hr : first 0 c = r := Function.update_self ..
    have htrace : (Prog.call c k).trace first =
        (⟨c, first 0 c⟩ :: ((k (first 0 c)).trace o).1, ((k (first 0 c)).trace o).2) := rfl
    rw [hr] at htrace
    refine ⟨first, ?_, ?_⟩
    · rw [htrace, ha]
    · rw [htrace]
      simpa using hk

end Prog
