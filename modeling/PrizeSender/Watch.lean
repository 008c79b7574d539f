import PrizeSender.Trace

/-! Programs whose calls must each be allowed by the calls before it. -/

namespace Prog

variable {C : Type} {R : C → Type} {α β ε M : Type} {δ : M → Event C R → M} {allowed : M → C → Prop}

/-- An automaton that also records whether every call so far was allowed. -/
def watch (δ : M → Event C R → M) (allowed : M → C → Prop) (m : M × Prop) (e : Event C R) :
    M × Prop :=
  (δ m.1 e, m.2 ∧ allowed m.1 e.1)

/-- Each call of a trace is allowed in the state that those before it lead to. -/
def Follows (δ : M → Event C R → M) (allowed : M → C → Prop) (m : M) (tr : List (Event C R)) : Prop :=
  ∀ before e after, tr = before ++ e :: after → allowed (before.foldl δ m) e.1

theorem follows_cons {m : M} {e : Event C R} {tr : List (Event C R)} :
    Follows δ allowed m (e :: tr) ↔ allowed m e.1 ∧ Follows δ allowed (δ m e) tr := by
  constructor
  · intro h
    refine ⟨h [] e tr rfl, ?_⟩
    rintro before f after rfl
    exact h (e :: before) f after rfl
  · rintro ⟨he, h⟩ before f after heq
    cases before with
    | nil =>
      obtain ⟨rfl, _⟩ := List.cons.inj heq
      exact he
    | cons g before =>
      obtain ⟨rfl, htr⟩ := List.cons.inj heq
      exact h before f after htr

theorem foldl_watch {m : M} {P : Prop} (tr : List (Event C R)) :
    (tr.foldl (watch δ allowed) (m, P)).2 ↔ P ∧ Follows δ allowed m tr := by
  induction tr generalizing m P with
  | nil => simp [Follows]
  | cons e tr ih => rw [List.foldl_cons, watch, ih, follows_cons, and_assoc]

/-- Every call the program makes from `m` on is allowed. -/
abbrev Obeys (δ : M → Event C R → M) (allowed : M → C → Prop) (p : Prog C R α) (m : M) : Prop :=
  p.wp (monitor (watch δ allowed)) .alone (fun _ (m' : M × Prop) _ => m'.2) (m, True) ()

variable {m : M}

theorem Obeys.follows {p : Prog C R α} (h : p.Obeys δ allowed m) (o : Nat → (c : C) → R c) :
    Follows δ allowed m (p.trace o).1 :=
  ((foldl_watch _).mp (trace_of_wp h o)).2

theorem watch_allowed {e : Event C R} (h : allowed m e.1) :
    watch δ allowed (m, True) e = (δ m e, True) := by
  rw [watch, true_and, eq_true h]

theorem wp_lift_watch {c : C} {f : R c → ExceptT ε (Prog C R) β}
    {Q : Except ε β → M × Prop → Unit → Prop} (hc : allowed m c)
    (h : ∀ r, (f r).run.wp (monitor (watch δ allowed)) .alone Q (δ m ⟨c, r⟩, True) ()) :
    (lift c >>= f).run.wp (monitor (watch δ allowed)) .alone Q (m, True) () := by
  apply wp_lift_monitor
  intro r
  rw [watch_allowed hc]
  exact h r

theorem wp_lift_last_watch {c : C} {Q : Except ε (R c) → M × Prop → Unit → Prop} (hc : allowed m c)
    (h : ∀ r, Q (.ok r) (δ m ⟨c, r⟩, True) ()) :
    (lift c : ExceptT ε (Prog C R) (R c)).run.wp (monitor (watch δ allowed)) .alone Q (m, True) () := by
  apply wp_lift_last
  intro r
  rw [watch_allowed hc]
  exact h r

theorem obeys_guard {c : C} {bad : R c → Prop} [DecidablePred bad]
    {fail : ExceptT ε (Prog C R) Unit} {rest : Unit → ExceptT ε (Prog C R) β} (hc : allowed m c)
    (hfail : ∀ r, bad r → fail.run.wp (monitor (watch δ allowed)) .alone
      (fun x (m' : M × Prop) _ => (∃ e, x = .error e) ∧ m'.2) (δ m ⟨c, r⟩, True) ())
    (hrest : ∀ r, ¬ bad r → (rest ()).run.Obeys δ allowed (δ m ⟨c, r⟩)) :
    (lift c >>= fun r => if bad r then fail >>= rest else rest ()).run.Obeys δ allowed m := by
  apply wp_guard_monitor
  · intro r hr
    rw [watch_allowed hc]
    refine wp_mono (hfail r hr) ?_
    rintro x m' u ⟨⟨e, rfl⟩, hm⟩
    exact ⟨e, rfl, hm⟩
  · intro r hr
    rw [watch_allowed hc]
    exact hrest r hr

theorem obeys_check {c : C} {bad : R c → Prop} [DecidablePred bad]
    {fail : ExceptT ε (Prog C R) Unit} {rest : Unit → ExceptT ε (Prog C R) β} {ok : R c}
    (hok : ∀ r, ¬ bad r → r = ok) (hc : allowed m c)
    (hfail : ∀ r, bad r → fail.run.wp (monitor (watch δ allowed)) .alone
      (fun x (m' : M × Prop) _ => (∃ e, x = .error e) ∧ m'.2) (δ m ⟨c, r⟩, True) ())
    (hrest : (rest ()).run.Obeys δ allowed (δ m ⟨c, ok⟩)) :
    (lift c >>= fun r => if bad r then fail >>= rest else rest ()).run.Obeys δ allowed m := by
  apply obeys_guard hc hfail
  intro r hr
  obtain rfl := hok r hr
  exact hrest

theorem obeys_seq {x : ExceptT ε (Prog C R) α} {f : α → ExceptT ε (Prog C R) β}
    (hx : x.run.Obeys δ allowed m) (hf : ∀ a m, (f a).run.Obeys δ allowed m) :
    (x >>= f).run.Obeys δ allowed m := by
  apply wp_seq
  refine wp_mono hx ?_
  rintro (e | a) ⟨m', P⟩ u hP
  · exact fun _ _ => hP
  · obtain rfl : P = True := eq_true hP
    exact hf a m'

end Prog
