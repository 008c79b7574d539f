import PrizeSender.SendEffect

/-! Every INSERT carries the prize of its own sender, answered or not. -/

namespace PrizeSender

open Prog Sql

variable {κ ι : Type} {sv : Sql.Server} {g : ι → Choice} {i : κ}
variable {l : Client} {m : List (LogEntry κ)} {conn : Mysql} {stmt : MysqlStmt}

/-- An INSERT has been executed with the sender's own values, or only prepared. -/
def LogEntry.OwnPrize (g : ι → Choice) (account : Bytes) (world charguid item count : CInt)
    (e : LogEntry κ) : Prop :=
  e.stmt = insertQuery →
    e.params = [] ∨ ∃ y, e.params = insertValues g account world charguid item count y

variable [DecidableEq κ]

theorem submit_mine (sv : Sql.Server) (i : κ) (x : Choice) (s : ServerState κ) (q : Statement)
    (ps : List Value) :
    ∃ es, (∀ e ∈ es, e.stmt = q ∧ e.params = ps) ∧
      mine i (submit sv i x s q ps).2 = es ++ mine i s := by
  unfold submit
  split
  next => exact ⟨[_], by simp, mine_record_self rfl⟩
  next => exact ⟨[], by simp, rfl⟩
  next => exact ⟨[_], by simp, mine_record_self rfl⟩

section

variable {β : Type} {P : Except Bytes β → List (LogEntry κ) → Prop}

/-- However the execution of a statement ends, it leaves entries with the
parameters bound before. -/
theorem spec_executed {q : Statement} {f : Bool → Db β} (hq : l.query stmt = some q)
    (h : ∀ failed l' es, (∀ e ∈ es, e.stmt = q ∧ e.params = l.params stmt) →
      Spec sv g i (f failed) P l' (es ++ m)) :
    Spec sv g i (mysqlStmtExecute stmt >>= f) P l m := by
  intro s hs
  apply wp_lift
  intro s' hs' y
  change mine i s' = mine i s at hs'
  obtain ⟨es, hes, hown⟩ := submit_mine sv i (g y) s' q (l.params stmt)
  rw [hs', hs] at hown
  simp only [serve, hq]
  generalize submit sv i (g y) s' q (l.params stmt) = out at hown
  rcases out with ⟨errno | n, t⟩
  · exact h true l es hes t hown
  · exact h false _ es hes t hown

end

variable {account : Bytes} {world charguid item count : CInt}

/-- What a run adds to the log of its sender carries the sender's prize. -/
def AddsOwn (g : ι → Choice) (account : Bytes) (world charguid item count : CInt)
    (m m' : List (LogEntry κ)) : Prop :=
  ∃ es, m' = es ++ m ∧ ∀ e ∈ es, e.OwnPrize g account world charguid item count

omit [DecidableEq κ] in
theorem addsOwn_refl : AddsOwn g account world charguid item count m m := ⟨[], rfl, by simp⟩

theorem insertPrize_own :
    Spec sv g i (insertPrize conn account world charguid item count)
      (fun _ m' => AddsOwn g account world charguid item count m m') l m := by
  unfold insertPrize
  apply spec_stmtInit
  swap
  · intro _
    exact throwConnError_spec fun _ => addsOwn_refl
  apply spec_prepare
  rotate_left
  · intro db errno _
    exact throwStmtError_doomed fun _ => ⟨[_], rfl, by simp [LogEntry.OwnPrize, sent]⟩
  · intro _
    exact throwStmtError_doomed fun _ => addsOwn_refl
  apply spec_private fun _ _ => rfl
  intro y
  apply spec_bindParam
  swap
  · intro _
    exact throwStmtError_doomed fun _ => addsOwn_refl
  apply spec_executed (q := insertQuery) (by simp)
  intro failed l' es hes
  have hown : AddsOwn g account world charguid item count m (es ++ m) := by
    refine ⟨es, rfl, fun e he _ => Or.inr ⟨y, ?_⟩⟩
    rw [(hes e he).2]
    simp [insertValues]
  cases failed with
  | true => exact throwStmtError_doomed fun _ => hown
  | false =>
    apply spec_private fun _ _ => rfl
    intro z
    exact spec_return hown

theorem processSendPrize_own {cp : CodePage UInt16 UInt8} {dbConfig : CAppConfigDb}
    {username : WString} :
    Spec sv g i (processSendPrize cp dbConfig username world charguid item count)
      (fun _ m' => AddsOwn g (cp.encode username) world charguid item count m m') l m := by
  unfold processSendPrize
  apply spec_init
  swap
  · intro _
    exact spec_throw addsOwn_refl
  apply spec_private fun _ _ => rfl
  intro x
  simp only [Bool.false_eq_true, if_false]
  apply spec_realConnect
  swap
  · intro _
    exact throwConnError_doomed fun _ => addsOwn_refl
  apply spec_seq
  apply spec_mono checkAccountExists_spec
  rintro r m₁ ⟨es, rfl, haccount⟩
  have hown₁ : ∀ e ∈ es, e.OwnPrize g (cp.encode username) world charguid item count := by
    intro e he hst
    cases (haccount.stmt e he).symm.trans hst
  cases r with
  | error e => exact ⟨es, rfl, hown₁⟩
  | ok _ =>
  intro l₁
  apply spec_seq
  apply spec_mono checkPrizeTable_spec
  rintro r m₂ ⟨es', rfl, htable⟩
  have hown₂ : ∀ e ∈ es' ++ es, e.OwnPrize g (cp.encode username) world charguid item count := by
    intro e he hst
    rcases List.mem_append.mp he with he | he
    · rcases htable.stmt e he with h | h <;> cases h.symm.trans hst
    · exact hown₁ e he hst
  cases r with
  | error e => exact ⟨es' ++ es, by simp, hown₂⟩
  | ok _ =>
  intro l₂
  apply spec_seq
  apply spec_mono insertPrize_own
  rintro r m₃ ⟨es'', rfl, hown₃⟩
  have hown : ∀ e ∈ es'' ++ (es' ++ es),
      e.OwnPrize g (cp.encode username) world charguid item count := by
    intro e he
    rcases List.mem_append.mp he with he | he
    · exact hown₃ e he
    · exact hown₂ e he
  cases r with
  | error e => exact ⟨_, by simp, hown⟩
  | ok _ =>
    intro l₃
    exact spec_last (fun _ _ => rfl) fun _ => ⟨_, by simp, hown⟩

end PrizeSender
