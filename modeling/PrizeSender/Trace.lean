import PrizeSender.Prog

namespace Prog

variable {C : Type} {R : C → Type} {α β ε M : Type}

abbrev Event (C : Type) (R : C → Type) := (c : C) × R c

/-- The calls of a run whose `n`-th reply is the one `o n` gives. -/
def trace : Prog C R α → (Nat → (c : C) → R c) → List (Event C R) × α
  | .pure a, _ => ([], a)
  | .call c k, o =>
    let rest := trace (k (o 0 c)) (fun n => o (n + 1))
    (⟨c, o 0 c⟩ :: rest.1, rest.2)

/-- The environment that gives every reply and lets an automaton watch. -/
def monitor (δ : M → Event C R → M) : Env C R ((c : C) → R c) M Unit :=
  fun x m _ c => (x c, δ m ⟨c, x c⟩, ())

variable {δ : M → Event C R → M} {m : M}

/-- What is proved under an automaton holds of its state after every trace. -/
theorem trace_of_wp {p : Prog C R α} {Q : α → M → Unit → Prop}
    (h : p.wp (monitor δ) .alone Q m ()) (o : Nat → (c : C) → R c) :
    Q (p.trace o).2 ((p.trace o).1.foldl δ m) () := by
  induction p generalizing m o with
  | pure a => exact h () rfl
  | call c k ih => exact ih _ (h () rfl (o 0)) _

theorem wp_monitor_keeps {I : M → Prop} (step : ∀ m e, I m → I (δ m e)) (p : Prog C R α)
    (h : I m) : p.wp (monitor δ) .alone (fun _ m _ => I m) m () := by
  induction p generalizing m with
  | pure a => exact fun _ _ => h
  | call c k ih => exact fun _ _ x => ih _ (step _ _ h)

/-- The automaton that collects what `f` picks from the events. -/
def collect {A : Type} (f : Event C R → Option A) (m : List A) (e : Event C R) : List A :=
  m ++ (f e).toList

theorem foldl_collect {A : Type} (f : Event C R → Option A) (tr : List (Event C R)) (m : List A) :
    tr.foldl (collect f) m = m ++ tr.filterMap f := by
  induction tr generalizing m with
  | nil => simp
  | cons e tr ih =>
    rw [List.foldl_cons, ih, collect, List.append_assoc]
    cases h : f e <;> simp [h]

theorem trace_bind {p : Prog C R α} {f : α → Prog C R β} {o : Nat → (c : C) → R c} :
    (p >>= f).trace o =
      ((p.trace o).1 ++ ((f (p.trace o).2).trace fun n => o (n + (p.trace o).1.length)).1,
        ((f (p.trace o).2).trace fun n => o (n + (p.trace o).1.length)).2) := by
  induction p generalizing o with
  | pure a => rfl
  | call c k ih =>
    have h := ih (o 0 c) (o := fun n => o (n + 1))
    have hc : (Prog.call c k >>= f).trace o =
        (⟨c, o 0 c⟩ :: ((k (o 0 c) >>= f).trace fun n => o (n + 1)).1,
          ((k (o 0 c) >>= f).trace fun n => o (n + 1)).2) := rfl
    rw [hc, h]
    rfl

theorem wp_call_monitor {c : C} {k : R c → Prog C R β} {Q : β → M → Unit → Prop}
    (h : ∀ r, (k r).wp (monitor δ) .alone Q (δ m ⟨c, r⟩) ()) :
    (perform c >>= k).wp (monitor δ) .alone Q m () :=
  fun _ _ x => h (x c)

theorem wp_lift_monitor {c : C} {f : R c → ExceptT ε (Prog C R) β}
    {Q : Except ε β → M → Unit → Prop}
    (h : ∀ r, (f r).run.wp (monitor δ) .alone Q (δ m ⟨c, r⟩) ()) :
    (lift c >>= f).run.wp (monitor δ) .alone Q m () :=
  wp_lift_private (fun x => x c) (fun x => δ m ⟨c, x c⟩) (fun _ _ => rfl) fun x => h (x c)

theorem wp_lift_last {c : C} {Q : Except ε (R c) → M → Unit → Prop}
    (h : ∀ r, Q (.ok r) (δ m ⟨c, r⟩) ()) :
    (lift c : ExceptT ε (Prog C R) (R c)).run.wp (monitor δ) .alone Q m () :=
  fun _ _ x _ _ => h (x c)

/-- A checked call under an automaton: a bad reply leads to a throw. -/
theorem wp_guard_monitor {c : C} {bad : R c → Prop} [DecidablePred bad]
    {fail : ExceptT ε (Prog C R) Unit} {rest : Unit → ExceptT ε (Prog C R) β}
    {Q : Except ε β → M → Unit → Prop}
    (hfail : ∀ r, bad r → fail.run.wp (monitor δ) .alone
      (fun x m u => ∃ e, x = .error e ∧ Q (.error e) m u) (δ m ⟨c, r⟩) ())
    (hrest : ∀ r, ¬ bad r → (rest ()).run.wp (monitor δ) .alone Q (δ m ⟨c, r⟩) ()) :
    (lift c >>= fun r => if bad r then fail >>= rest else rest ()).run.wp
      (monitor δ) .alone Q m () := by
  apply wp_lift_monitor
  intro r
  by_cases hr : bad r
  · simp only [if_pos hr]
    apply wp_seq
    apply wp_mono (hfail r hr)
    rintro x m u ⟨e, rfl, hq⟩ u' _
    exact hq
  · simp only [if_neg hr]
    exact hrest r hr

/-- A checked call with one good reply under an automaton. -/
theorem wp_check_monitor {c : C} {bad : R c → Prop} [DecidablePred bad]
    {fail : ExceptT ε (Prog C R) Unit} {rest : Unit → ExceptT ε (Prog C R) β}
    {Q : Except ε β → M → Unit → Prop} {ok : R c} (hok : ∀ r, ¬ bad r → r = ok)
    (hfail : ∀ r, bad r → fail.run.wp (monitor δ) .alone
      (fun x m u => ∃ e, x = .error e ∧ Q (.error e) m u) (δ m ⟨c, r⟩) ())
    (hrest : (rest ()).run.wp (monitor δ) .alone Q (δ m ⟨c, ok⟩) ()) :
    (lift c >>= fun r => if bad r then fail >>= rest else rest ()).run.wp
      (monitor δ) .alone Q m () := by
  apply wp_guard_monitor hfail
  intro r hr
  obtain rfl := hok r hr
  exact hrest

end Prog
