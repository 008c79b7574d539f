import PrizeSender.Prog

/-! Programs that run side by side over one shared state. -/

namespace Prog

variable {C : Type} {R : C → Type} {ι κ σ S α β ε : Type}

def result? : Prog C R α → Option α
  | .pure a => some a
  | .call .. => none

/-- A program on its way, with its private state. -/
structure Thread (C : Type) (R : C → Type) (σ α : Type) where
  prog : Prog C R α
  own : σ

structure Pool (C : Type) (R : C → Type) (κ σ S α : Type) where
  threads : κ → Thread C R σ α
  shared : S

section

variable [DecidableEq κ]

/-- Thread `i` makes its next call, if it has one. -/
def Pool.step (env : κ → Env C R ι σ S) (p : Pool C R κ σ S α) (i : κ) (y : ι) :
    Pool C R κ σ S α :=
  match (p.threads i).prog with
  | .pure _ => p
  | .call c k =>
    let answer := env i y (p.threads i).own p.shared c
    ⟨Function.update p.threads i ⟨k answer.1, answer.2.1⟩, answer.2.2⟩

/-- The threads make their calls in the order of a schedule. -/
def Pool.interleave (env : κ → Env C R ι σ S) : List (κ × ι) → Pool C R κ σ S α → Pool C R κ σ S α
  | [], p => p
  | (i, y) :: schedule, p => interleave env schedule (p.step env i y)

variable {env : κ → Env C R ι σ S} {rely : κ → Interference S} {p : Pool C R κ σ S α}
variable {Q : κ → α → σ → S → Prop}

/-- A step of one thread keeps what every thread will end in. -/
theorem step_wp
    (guarantee : ∀ i j y l s c, i ≠ j → (rely i).step s (env j y l s c).2.2)
    (h : ∀ i, (p.threads i).prog.wp (env i) (rely i) (Q i) (p.threads i).own p.shared)
    (j : κ) (y : ι) (i : κ) :
    ((p.step env j y).threads i).prog.wp (env i) (rely i) (Q i) ((p.step env j y).threads i).own
      (p.step env j y).shared := by
  unfold Pool.step
  split
  next => exact h i
  next c k hp =>
    by_cases hij : i = j
    · subst hij
      have hi := h i
      rw [hp] at hi
      simp only [Function.update_self]
      exact hi _ ((rely i).refl _) y
    · simp only [Function.update_of_ne hij]
      exact wp_stable (h i) (guarantee i j y _ _ c hij)

theorem interleave_wp
    (guarantee : ∀ i j y l s c, i ≠ j → (rely i).step s (env j y l s c).2.2)
    (schedule : List (κ × ι))
    (h : ∀ i, (p.threads i).prog.wp (env i) (rely i) (Q i) (p.threads i).own p.shared) (i : κ) :
    let p' := p.interleave env schedule
    (p'.threads i).prog.wp (env i) (rely i) (Q i) (p'.threads i).own p'.shared := by
  induction schedule generalizing p with
  | nil => exact h i
  | cons x schedule ih => exact ih fun i => step_wp guarantee h x.1 x.2 i

theorem interleave_ended
    (guarantee : ∀ i j y l s c, i ≠ j → (rely i).step s (env j y l s c).2.2)
    (schedule : List (κ × ι))
    (h : ∀ i, (p.threads i).prog.wp (env i) (rely i) (Q i) (p.threads i).own p.shared) {i : κ}
    {a : α} (ha : ((p.interleave env schedule).threads i).prog.result? = some a) :
    Q i a ((p.interleave env schedule).threads i).own (p.interleave env schedule).shared := by
  have hwp := interleave_wp guarantee schedule h i
  cases hp : ((p.interleave env schedule).threads i).prog with
  | call c k => simp [hp, result?] at ha
  | pure b =>
    have hb : b = a := by simpa [hp, result?] using ha
    simp only [hp] at hwp
    exact hb ▸ hwp _ ((rely i).refl _)

theorem interleave_keeps {I : S → Prop} (step : ∀ i y l s c, I s → I (env i y l s c).2.2)
    (schedule : List (κ × ι)) (h : I p.shared) : I (p.interleave env schedule).shared := by
  induction schedule generalizing p with
  | nil => exact h
  | cons x schedule ih =>
    apply ih
    unfold Pool.step
    split
    next => exact h
    next => exact step _ _ _ _ _ h

end

/-! Bounds on the number of calls. -/

/-- The program ends after at most `n` calls. -/
def Within : Prog C R α → Nat → Prop
  | .pure _, _ => True
  | .call _ _, 0 => False
  | .call _ k, n + 1 => ∀ r, (k r).Within n

theorem within_mono {p : Prog C R α} {n m : Nat} (h : p.Within n) (hn : n ≤ m) : p.Within m := by
  induction p generalizing n m with
  | pure a => trivial
  | call c k ih =>
    cases n with
    | zero => exact h.elim
    | succ n =>
      cases m with
      | zero => omega
      | succ m => exact fun r => ih r (h r) (by omega)

theorem within_bind {p : Prog C R α} {f : α → Prog C R β} {n m : Nat} (h : p.Within n)
    (hf : ∀ a, (f a).Within m) : (p >>= f).Within (n + m) := by
  induction p generalizing n with
  | pure a => exact within_mono (hf a) (by omega)
  | call c k ih =>
    cases n with
    | zero => exact h.elim
    | succ n =>
      rw [Nat.succ_add]
      exact fun r => ih r (h r)

theorem within_seq {x : ExceptT ε (Prog C R) α} {f : α → ExceptT ε (Prog C R) β} {n m : Nat}
    (h : x.run.Within n) (hf : ∀ a, (f a).run.Within m) : (x >>= f).run.Within (n + m) := by
  apply within_bind (p := x.run) (f := ExceptT.bindCont f) h
  intro r
  cases r with
  | ok a => exact hf a
  | error e => trivial

theorem within_lift {c : C} {f : R c → ExceptT ε (Prog C R) β} {n : Nat}
    (h : ∀ r, (f r).run.Within n) : (lift c >>= f).run.Within (n + 1) := h

/-- A thread that gets as many turns as its program may make calls has ended. -/
theorem interleave_within [DecidableEq κ] {env : κ → Env C R ι σ S} {p : Pool C R κ σ S α} {i : κ}
    {n : Nat} {schedule : List (κ × ι)} (h : (p.threads i).prog.Within n)
    (hn : n ≤ (schedule.map Prod.fst).count i) :
    ((p.interleave env schedule).threads i).prog.result?.isSome := by
  induction schedule generalizing p n with
  | nil =>
    have hzero : n = 0 := by simpa using hn
    subst hzero
    cases hp : (p.threads i).prog with
    | pure a => simp [Pool.interleave, hp, result?]
    | call c k =>
      rw [hp] at h
      exact h.elim
  | cons x schedule ih =>
    rw [List.map_cons, List.count_cons] at hn
    by_cases hx : x.1 = i
    · apply ih (n := n - 1)
      · unfold Pool.step
        split
        next a hp =>
          rw [← hx, hp]
          trivial
        next c k hp =>
          rw [← hx, hp] at h
          simp only [hx, Function.update_self]
          cases n with
          | zero => exact h.elim
          | succ n => exact h _
      · simp only [hx, beq_self_eq_true, if_true] at hn
        omega
    · apply ih (n := n)
      · unfold Pool.step
        split
        next => exact h
        next => simpa only [Function.update_of_ne (Ne.symm hx)] using h
      · simpa [hx] using hn

end Prog
