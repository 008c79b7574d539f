import PrizeSender.SendLog

namespace PrizeSender

open Prog Sql

variable {κ ι : Type} [DecidableEq κ] {sv : Sql.Server} {g : ι → Choice} {i : κ} {l : Client}
variable {m : List (LogEntry κ)} {conn : Mysql} {stmt : MysqlStmt} {errMsg : Bytes}

/-! The calls that do not reach the server, each with its two ends. -/

section

variable {β : Type} {P : Except Bytes β → List (LogEntry κ) → Prop}

/-- A call whose reply says only whether it has failed. -/
theorem spec_fallible {c : DbCall} {f : c.Reply → Db β} {own : Client} (back : Bool → c.Reply)
    (quiet : ∀ x (t : ServerState κ), serve sv i x l t c = (back x.fails, own, t))
    (hok : Spec sv g i (f (back false)) P own m)
    (hfault : Faults g → Spec sv g i (f (back true)) P own m) :
    Spec sv g i (Db.call c >>= f) P l m := by
  apply spec_private quiet
  intro y
  cases hy : (g y).fails with
  | true => exact hfault ⟨y, hy⟩
  | false => exact hok

theorem spec_init {f : Option Mysql → Db β}
    (hok : Spec sv g i (f (some ⟨l.fresh⟩)) P { l with fresh := l.fresh + 1 } m)
    (hfault : Faults g → Spec sv g i (f none) P { l with fresh := l.fresh + 1 } m) :
    Spec sv g i (mysqlInit >>= f) P l m :=
  spec_fallible (fun b => if b then none else some ⟨l.fresh⟩) (fun _ _ => rfl) hok hfault

theorem spec_realConnect {host user password dbName : Bytes} {port : BitVec 32}
    {f : Option Mysql → Db β} (hok : Spec sv g i (f (some conn)) P l m)
    (hfault : Faults g → Spec sv g i (f none) P l m) :
    Spec sv g i (mysqlRealConnect conn host user password dbName port >>= f) P l m :=
  spec_fallible (fun b => if b then none else some conn) (fun _ _ => rfl) hok hfault

theorem spec_stmtInit {f : Option MysqlStmt → Db β}
    (hok : Spec sv g i (f (some ⟨l.fresh⟩)) P { l with fresh := l.fresh + 1 } m)
    (hfault : Faults g → Spec sv g i (f none) P { l with fresh := l.fresh + 1 } m) :
    Spec sv g i (mysqlStmtInit conn >>= f) P l m :=
  spec_fallible (fun b => if b then none else some ⟨l.fresh⟩) (fun _ _ => rfl) hok hfault

theorem spec_bindParam {params : List MysqlBind} {f : Bool → Db β}
    (hok : Spec sv g i (f false) P
      { l with params := Function.update l.params stmt (params.map MysqlBind.value) } m)
    (hfault : Faults g → Spec sv g i (f true) P
      { l with params := Function.update l.params stmt (params.map MysqlBind.value) } m) :
    Spec sv g i (mysqlStmtBindParam stmt params >>= f) P l m :=
  spec_fallible id (fun _ _ => rfl) hok hfault

theorem spec_stmtStoreResult {f : Bool → Db β} (hok : Spec sv g i (f false) P l m)
    (hfault : Faults g → Spec sv g i (f true) P l m) :
    Spec sv g i (mysqlStmtStoreResult stmt >>= f) P l m :=
  spec_fallible id (fun _ _ => rfl) hok hfault

theorem spec_stmtClose {f : Bool → Db β} (hok : Spec sv g i (f false) P l m)
    (hfault : Faults g → Spec sv g i (f true) P l m) :
    Spec sv g i (mysqlStmtClose stmt >>= f) P l m :=
  spec_fallible id (fun _ _ => rfl) hok hfault

theorem spec_storeResult {f : Option MysqlRes → Db β}
    (hok : Spec sv g i (f (some ⟨l.fresh⟩)) P { l with fresh := l.fresh + 1 } m)
    (hfault : Faults g → Spec sv g i (f none) P { l with fresh := l.fresh + 1 } m) :
    Spec sv g i (mysqlStoreResult conn >>= f) P l m :=
  spec_fallible (fun b => if b then none else some ⟨l.fresh⟩) (fun _ _ => rfl) hok hfault

end

/-! The tails that throw. -/

section

variable {P : Except Bytes Unit → List (LogEntry κ) → Prop}

theorem throwConnError_spec (h : ∀ e, P (.error e) m) :
    Spec sv g i (throwConnError conn errMsg) P l m := by
  apply spec_private fun _ _ => rfl
  intro x
  apply spec_private fun _ _ => rfl
  intro x
  exact spec_throw (h _)

theorem throwStmtError_spec (h : ∀ e, P (.error e) m) :
    Spec sv g i (throwStmtError conn stmt errMsg) P l m := by
  apply spec_private fun _ _ => rfl
  intro x
  apply spec_private fun _ _ => rfl
  intro x
  apply spec_private fun _ _ => rfl
  intro y
  exact spec_throw (h _)

theorem throwCloseError_spec (h : ∀ e, P (.error e) m) :
    Spec sv g i (throwCloseError conn stmt) P l m := by
  apply spec_private fun _ _ => rfl
  intro x
  apply spec_private fun _ _ => rfl
  intro y
  split
  next => exact throwConnError_spec h
  next =>
    apply spec_private fun _ _ => rfl
    intro z
    exact spec_throw (h _)

/-- What comes after a tail that throws is never reached. -/
theorem spec_doomed {tail : Db Unit} {rest : Unit → Db Unit}
    (h : Spec sv g i tail (fun r m => ∃ e, r = .error e ∧ P (.error e) m) l m) :
    Spec sv g i (tail >>= rest) P l m := by
  apply spec_seq
  apply spec_mono h
  rintro r m ⟨e, rfl, he⟩
  exact he

theorem throwConnError_doomed {rest : Unit → Db Unit} (h : ∀ e, P (.error e) m) :
    Spec sv g i (throwConnError conn errMsg >>= rest) P l m :=
  spec_doomed (throwConnError_spec fun e => ⟨e, rfl, h e⟩)

theorem throwStmtError_doomed {rest : Unit → Db Unit} (h : ∀ e, P (.error e) m) :
    Spec sv g i (throwStmtError conn stmt errMsg >>= rest) P l m :=
  spec_doomed (throwStmtError_spec fun e => ⟨e, rfl, h e⟩)

theorem throwCloseError_doomed {rest : Unit → Db Unit} (h : ∀ e, P (.error e) m) :
    Spec sv g i (throwCloseError conn stmt >>= rest) P l m :=
  spec_doomed (throwCloseError_spec fun e => ⟨e, rfl, h e⟩)

end

/-! The functions of `dbAction.cpp`. -/

theorem checkAccountExists_spec {account : Bytes} :
    Spec sv g i (checkAccountExists conn account)
      (fun r m' => ∃ es, m' = es ++ m ∧ AccountLog g i account es r) l m := by
  unfold checkAccountExists
  apply spec_stmtInit
  swap
  · intro hf
    exact throwConnError_spec fun e => ⟨[], rfl, .faulted hf (by simp)⟩
  apply spec_prepare
  rotate_left
  · intro db errno hdb
    exact throwStmtError_doomed fun e => ⟨[_], rfl, .unprepared hdb⟩
  · intro hf
    exact throwStmtError_doomed fun e => ⟨[], rfl, .faulted hf (by simp)⟩
  apply spec_bindParam
  swap
  · intro hf
    exact throwStmtError_doomed fun e => ⟨[], rfl, .faulted hf (by simp)⟩
  have hps : Function.update l.params ⟨l.fresh⟩ ([MysqlBind.string account (strlen account)].map
      MysqlBind.value) ⟨l.fresh⟩ = [.text (cString account)] := by
    simp [MysqlBind.value, cString]
  apply spec_execute (q := selectAccount) (by simp)
  rotate_left
  · intro errno
    simp only [hps]
    exact throwStmtError_doomed fun e => ⟨[_], rfl, .refused⟩
  · intro hf es hes _
    exact throwStmtError_doomed fun e => ⟨es, rfl, .faulted hf fun e he => (hes e he).1⟩
  intro a n ha
  simp only [hps]
  apply spec_stmtStoreResult
  swap
  · intro hf
    exact throwStmtError_doomed fun e => ⟨[_], rfl, .faulted hf (by simp [sent])⟩
  apply spec_private fun _ _ => rfl
  intro x
  apply spec_private fun _ _ => rfl
  intro y
  simp only [Function.update_self]
  apply spec_stmtClose
  swap
  · intro hf
    exact throwCloseError_doomed fun e => ⟨[_], rfl, .faulted hf (by simp [sent])⟩
  by_cases hn : n = 0
  · subst hn
    apply spec_private fun _ _ => rfl
    intro z
    exact spec_throw ⟨[_], rfl, .missing ha⟩
  · simp only [if_neg hn]
    apply spec_return
    rcases reply_eq_ok ha with rfl | h0
    · exact ⟨[_], rfl, .found hn⟩
    · exact absurd h0 hn

theorem checkPrizeTable_spec :
    Spec sv g i (checkPrizeTable conn)
      (fun r m' => ∃ es, m' = es ++ m ∧ TableLog g i es r) l m := by
  unfold checkPrizeTable
  apply spec_realQuery
  · intro a n ha
    apply spec_storeResult
    swap
    · intro hf
      exact throwConnError_spec fun e => ⟨[_], rfl, .faulted hf (by simp [sent])⟩
    exact spec_last (fun _ _ => rfl) fun _ => ⟨[_], rfl, .found ha⟩
  · intro errno
    apply spec_private fun _ _ => rfl
    intro x
    by_cases hn : errno = erNoSuchTable
    · subst hn
      apply spec_realQuery
      · intro b n hb
        exact spec_return ⟨[_, _], rfl, .made hb⟩
      · intro errno
        exact throwConnError_spec fun e => ⟨[_, _], rfl, .unmade⟩
      · intro hf l' es hes _
        refine throwConnError_spec fun e =>
          ⟨es ++ [sent i checkTableQuery [] (.error erNoSuchTable)], by simp, .faulted hf ?_⟩
        intro e he
        rcases List.mem_append.mp he with he | he
        · exact Or.inr (hes e he).1
        · exact Or.inl (by rw [List.mem_singleton.mp he]; rfl)
    · simp only [if_neg hn]
      apply spec_private fun _ _ => rfl
      intro y
      apply spec_private fun _ _ => rfl
      intro z
      exact spec_throw ⟨[_], rfl, .refused hn⟩
  · intro hf l' es hes _
    have hprobe : ∀ e ∈ es, e.stmt = checkTableQuery ∨ e.stmt = createTableSql :=
      fun e he => Or.inl (hes e he).1
    apply spec_private fun _ _ => rfl
    intro x
    by_cases hn : l'.errno = erNoSuchTable
    · simp only [if_pos hn]
      apply spec_realQuery
      · intro b n hb
        exact spec_return ⟨_ :: es, rfl, .faulted hf (by simpa [sent] using hprobe)⟩
      · intro errno
        exact throwConnError_spec fun e => ⟨_ :: es, rfl, .faulted hf (by simpa [sent] using hprobe)⟩
      · intro _ l'' es' hes' _
        refine throwConnError_spec fun e => ⟨es' ++ es, by simp, .faulted hf ?_⟩
        intro e he
        rcases List.mem_append.mp he with he | he
        · exact Or.inr (hes' e he).1
        · exact hprobe e he
    · simp only [if_neg hn]
      apply spec_private fun _ _ => rfl
      intro y
      apply spec_private fun _ _ => rfl
      intro z
      exact spec_throw ⟨es, rfl, .faulted hf hprobe⟩

theorem insertPrize_spec {account : Bytes} {world charguid item count : CInt} :
    Spec sv g i (insertPrize conn account world charguid item count)
      (fun r m' => ∃ es, m' = es ++ m ∧
        PrizeLog g i account world charguid item count es r) l m := by
  unfold insertPrize
  apply spec_stmtInit
  swap
  · intro hf
    exact throwConnError_spec fun e => ⟨[], rfl, .faulted hf (by simp) (by simp)⟩
  apply spec_prepare
  rotate_left
  · intro db errno hdb
    exact throwStmtError_doomed fun e => ⟨[_], rfl, .unprepared hdb⟩
  · intro hf
    exact throwStmtError_doomed fun e => ⟨[], rfl, .faulted hf (by simp) (by simp)⟩
  apply spec_private fun _ _ => rfl
  intro y
  apply spec_bindParam
  swap
  · intro hf
    exact throwStmtError_doomed fun e => ⟨[], rfl, .faulted hf (by simp) (by simp)⟩
  have hps : Function.update l.params ⟨l.fresh⟩ ((insertParams account world charguid item count
      (g y).clock).map MysqlBind.value) ⟨l.fresh⟩ =
      insertValues g account world charguid item count y := by
    simp [insertValues]
  apply spec_execute (q := insertQuery) (by simp)
  rotate_left
  · intro errno
    simp only [hps]
    exact throwStmtError_doomed fun e => ⟨[_], rfl, .refused⟩
  · intro hf es hes hlen
    exact throwStmtError_doomed fun e => ⟨es, rfl, .faulted hf hes hlen⟩
  intro a n ha
  simp only [hps]
  apply spec_private fun _ _ => rfl
  intro z
  exact spec_return ⟨[_], rfl, .stored ha⟩

theorem processSendPrize_spec {cp : CodePage UInt16 UInt8} {dbConfig : CAppConfigDb}
    {username : WString} {world charguid item count : CInt} :
    Spec sv g i (processSendPrize cp dbConfig username world charguid item count)
      (fun r m' => ∃ es, m' = es ++ m ∧
        SendLog g i (cp.encode username) world charguid item count es r) l m := by
  unfold processSendPrize
  apply spec_init
  swap
  · intro hf
    exact spec_throw ⟨[], rfl, .unsent hf⟩
  apply spec_private fun _ _ => rfl
  intro x
  simp only [Bool.false_eq_true, if_false]
  apply spec_realConnect
  swap
  · intro hf
    exact throwConnError_doomed fun e => ⟨[], rfl, .unsent hf⟩
  apply spec_seq
  apply spec_mono checkAccountExists_spec
  rintro (e | _) m₁ ⟨es, rfl, haccount⟩
  · exact ⟨es, rfl, .account haccount⟩
  intro l₁
  apply spec_seq
  apply spec_mono checkPrizeTable_spec
  rintro (e | _) m₂ ⟨es', rfl, htable⟩
  · exact ⟨es' ++ es, by simp, .table haccount htable⟩
  intro l₂
  apply spec_seq
  apply spec_mono insertPrize_spec
  rintro r m₃ ⟨es'', rfl, hprize⟩
  have hlog : SendLog g i (cp.encode username) world charguid item count (es'' ++ (es' ++ es)) r :=
    .prize haccount htable hprize
  cases r with
  | error e => exact ⟨_, by simp, hlog⟩
  | ok u =>
    intro l₃
    exact spec_last (fun _ _ => rfl) fun _ => ⟨_, by simp, hlog⟩

end PrizeSender
