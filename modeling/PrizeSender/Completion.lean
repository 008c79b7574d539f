import PrizeSender.Interleave

/-! Pools that are brought to their end. -/

namespace Prog

variable {C : Type} {R : C → Type} {ι κ σ S α : Type} [DecidableEq κ]
variable {env : κ → Env C R ι σ S} {p : Pool C R κ σ S α} {i : κ} {y : ι} {a : α}

theorem interleave_append (env : κ → Env C R ι σ S) (p : Pool C R κ σ S α) (first rest : List (κ × ι)) :
    p.interleave env (first ++ rest) = (p.interleave env first).interleave env rest := by
  induction first generalizing p with
  | nil => rfl
  | cons x first ih => exact ih _

theorem step_result? (j : κ) (y : ι) (h : (p.threads i).prog.result? = some a) :
    ((p.step env j y).threads i).prog.result? = some a := by
  unfold Pool.step
  split
  next => exact h
  next c k hp =>
    by_cases hij : i = j
    · subst hij
      simp [hp, result?] at h
    · simpa only [Function.update_of_ne hij] using h

/-- A thread that has ended keeps its result. -/
theorem interleave_result? (schedule : List (κ × ι)) (h : (p.threads i).prog.result? = some a) :
    ((p.interleave env schedule).threads i).prog.result? = some a := by
  induction schedule generalizing p with
  | nil => exact h
  | cons x schedule ih => exact ih (step_result? x.1 x.2 h)

/-- A choice under which no call of thread `i` changes the shared state. -/
def Idle (env : κ → Env C R ι σ S) (y : ι) (i : κ) : Prop := ∀ l s c, (env i y l s c).2.2 = s

theorem interleave_idle {js : List κ} (hidle : ∀ i ∈ js, Idle env y i) :
    (p.interleave env (js.map fun i => (i, y))).shared = p.shared := by
  induction js generalizing p with
  | nil => rfl
  | cons i js ih =>
    rw [List.map_cons, Pool.interleave, ih fun j hj => hidle j (List.mem_cons_of_mem _ hj)]
    unfold Pool.step
    split
    next => rfl
    next c k _ => exact hidle i List.mem_cons_self _ _ c

/-- A thread ends after some turns in a row. -/
theorem exists_turns (env : κ → Env C R ι σ S) (p : Pool C R κ σ S α) (i : κ) (y : ι) :
    ∃ k, ((p.interleave env ((List.replicate k i).map fun i => (i, y))).threads
      i).prog.result?.isSome := by
  generalize hp : (p.threads i).prog = prog
  induction prog generalizing p with
  | pure a => exact ⟨0, by simp [Pool.interleave, hp, result?]⟩
  | call c k ih =>
    have hnext : ((p.step env i y).threads i).prog =
        k (env i y (p.threads i).own p.shared c).1 := by
      simp [Pool.step, hp]
    obtain ⟨n, hn⟩ := ih _ (p.step env i y) hnext
    exact ⟨n + 1, hn⟩

theorem exists_turns_list (env : κ → Env C R ι σ S) (p : Pool C R κ σ S α) (y : ι) (is : List κ) :
    ∃ js : List κ, (∀ j ∈ js, j ∈ is) ∧ ∀ i ∈ is,
      ((p.interleave env (js.map fun i => (i, y))).threads i).prog.result?.isSome := by
  induction is generalizing p with
  | nil => exact ⟨[], by simp, by simp⟩
  | cons i is ih =>
    obtain ⟨k, hk⟩ := exists_turns env p i y
    obtain ⟨js, hsub, hjs⟩ := ih (p.interleave env ((List.replicate k i).map fun i => (i, y)))
    refine ⟨List.replicate k i ++ js, ?_, ?_⟩
    · intro j hj
      rcases List.mem_append.mp hj with hj | hj
      · exact (List.eq_of_mem_replicate hj) ▸ List.mem_cons_self
      · exact List.mem_cons_of_mem _ (hsub j hj)
    rw [List.map_append, interleave_append]
    intro j hj
    rcases List.mem_cons.mp hj with rfl | hj
    · obtain ⟨a, ha⟩ := Option.isSome_iff_exists.mp hk
      rw [interleave_result? _ ha]
      rfl
    · exact hjs j hj

/-- Threads that can be idle can be brought to their end without a change to the
shared state. -/
theorem exists_completion {is : List κ} (hidle : ∀ i ∈ is, Idle env y i)
    (p : Pool C R κ σ S α) :
    ∃ rest : List (κ × ι), (p.interleave env rest).shared = p.shared ∧
      ∀ i ∈ is, ∃ a, ((p.interleave env rest).threads i).prog.result? = some a := by
  obtain ⟨js, hsub, hjs⟩ := exists_turns_list env p y is
  exact ⟨_, interleave_idle fun j hj => hidle j (hsub j hj),
    fun i hi => Option.isSome_iff_exists.mp (hjs i hi)⟩

/-- A thread that gets all the turns runs as it does alone. -/
theorem interleave_alone (env : κ → Env C R ι σ S) (y : ι) {n : Nat}
    (h : (p.threads i).prog.Within n) :
    let out := (p.threads i).prog.run (env i) (fun _ => y) (p.threads i).own p.shared
    p.interleave env (List.replicate n (i, y)) =
      ⟨Function.update p.threads i ⟨.pure out.1, out.2.1⟩, out.2.2⟩ := by
  induction n generalizing p with
  | zero =>
    cases hp : (p.threads i).prog with
    | call c k =>
      rw [hp] at h
      exact h.elim
    | pure a =>
      have hthread : p.threads i = ⟨.pure a, (p.threads i).own⟩ := by rw [← hp]
      simp only [List.replicate_zero, Pool.interleave, run]
      rw [← hthread, Function.update_eq_self]
  | succ n ih =>
    cases hp : (p.threads i).prog with
    | pure a =>
      have hstep : p.step env i y = p := by simp [Pool.step, hp]
      have hthread : p.threads i = ⟨.pure a, (p.threads i).own⟩ := by rw [← hp]
      have hn : (p.threads i).prog.Within n := by
        rw [hp]
        trivial
      have := ih hn
      simp only [List.replicate_succ, Pool.interleave, hstep]
      rw [this, hp]
    | call c k =>
      rw [hp] at h
      have hstep : (p.step env i y).threads i =
          ⟨k (env i y (p.threads i).own p.shared c).1,
            (env i y (p.threads i).own p.shared c).2.1⟩ := by
        simp [Pool.step, hp]
      have hshared : (p.step env i y).shared = (env i y (p.threads i).own p.shared c).2.2 := by
        simp [Pool.step, hp]
      have hothers : ∀ t, Function.update (p.step env i y).threads i t =
          Function.update p.threads i t := by
        intro t
        simp [Pool.step, hp]
      have hn : ((p.step env i y).threads i).prog.Within n := by
        rw [hstep]
        exact h _
      have := ih hn
      rw [hstep, hshared] at this
      simp only [hothers] at this
      exact this

end Prog
