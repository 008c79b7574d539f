import PrizeSender.Handles

namespace PrizeSender

open Prog

variable {h : Handles} {conn : Mysql} {stmt : MysqlStmt}

theorem throwConnError_handles {errMsg : Bytes} {Q : Except Bytes Unit → Handles → Unit → Prop}
    (hc : conn ∈ h.conns) (hq : ∀ e, Q (.error e) (h.closeConn conn) ()) :
    (throwConnError conn errMsg).run.wp (monitor Handles.step) .alone Q h () := by
  apply wp_lift_monitor
  intro what
  rw [Handles.step_error hc]
  apply wp_lift_monitor
  intro _
  rw [Handles.step_close hc]
  exact wp_throw fun _ _ => hq _

theorem throwStmtError_handles {errMsg : Bytes} {e : OpenStmt} {p : Pending}
    {Q : Except Bytes Unit → Handles → Unit → Prop}
    (hr : h.Ready conn) (hown : p = .none ∨ ∃ b, p = .statement e.stmt b) (hf : e.freed = false)
    (hq : ∀ e, Q (.error e) (h.closeConn conn) ()) :
    (throwStmtError conn e.stmt errMsg).run.wp (monitor Handles.step) .alone Q (h.push e p) () := by
  apply wp_lift_monitor
  intro what
  rw [Handles.step_stmtError]
  apply wp_lift_monitor
  intro failed
  rw [Handles.step_stmtClose hr.read hown, hf, Bool.and_false, Bool.or_false]
  apply wp_lift_monitor
  intro _
  rw [Handles.step_close hr.isOpen]
  exact wp_throw fun _ _ => hq _

theorem Handles.step_stmtError_any (h : Handles) (stmt : MysqlStmt) (what : Bytes) :
    ∃ m, h.step ⟨.mysqlStmtError stmt, what⟩ = { h with misused := m } ∧
      (h.stmts = [] → m = true) ∧ (h.misused = true → m = true) := by
  refine ⟨h.misused || !h.opens (.mysqlStmtError stmt), by simp [step], ?_, fun hm => by simp [hm]⟩
  intro hn
  simp [opens, find, hn]

/-- The statement read after its close is used though it is not open. -/
theorem throwCloseError_handles {Q : Except Bytes Unit → Handles → Unit → Prop}
    (hc : conn ∈ h.conns)
    (hq : ∀ e m, (h.stmts = [] → m = true) →
      Q (.error e) { h.closeConn conn with misused := m } ()) :
    (throwCloseError conn stmt).run.wp (monitor Handles.step) .alone Q h () := by
  apply wp_lift_monitor
  intro first
  obtain ⟨m, hm, hnil, _⟩ := h.step_stmtError_any stmt first
  rw [hm]
  apply wp_lift_monitor
  intro second
  obtain ⟨n, hn, _, hkeep⟩ := Handles.step_stmtError_any { h with misused := m } stmt second
  rw [hn]
  have hmiss : h.stmts = [] → n = true := fun he => hkeep (hnil he)
  by_cases hlen : strlen second = 0
  · simp only [if_pos hlen]
    exact throwConnError_handles (h := { h with misused := n }) hc fun e => hq e n hmiss
  · simp only [if_neg hlen]
    apply wp_lift_monitor
    intro _
    rw [Handles.step_close (h := { h with misused := n }) hc]
    exact wp_throw fun _ _ => hq _ n hmiss

/-- Every exit of the account check leaves the handles as it found them, the
connection being closed on a throw; only a failed close of its own statement
makes it use that statement once more. -/
def AccountExit (h : Handles) (conn : Mysql) : Except Bytes Unit → Handles → Prop
  | .ok _, h' => h' = h
  | .error _, h' => h' = h.closeConn conn ∨
    ∃ m, h' = { h.closeConn conn with closeRefused := true, misused := m } ∧
      (h.stmts = [] → m = true)

theorem checkAccountExists_handles {account : Bytes} (hr : h.Ready conn) :
    (checkAccountExists conn account).run.wp (monitor Handles.step) .alone
      (fun r h' _ => AccountExit h conn r h') h () := by
  unfold checkAccountExists
  apply wp_lift_monitor
  rintro (_ | stmt)
  · rw [Handles.step_stmtInit_null hr.isOpen]
    exact throwConnError_handles hr.isOpen fun _ => Or.inl rfl
  rw [Handles.step_stmtInit hr]
  apply wp_guard_monitor
  · rintro r hb
    rw [Handles.step_prepare (e := { stmt }) hr, if_pos hb]
    exact throwStmtError_handles (e := { stmt }) hr (Or.inl rfl) rfl fun _ => ⟨_, rfl, Or.inl rfl⟩
  rintro r hb
  rw [Handles.step_prepare (e := { stmt }) hr, if_neg hb]
  generalize hq : ({ stmt, query := some selectAccount } : OpenStmt) = e
  have hstmt : stmt = e.stmt := by rw [← hq]
  have hfresh : e.freed = false := by rw [← hq]
  have hquery : e.query = some selectAccount := by rw [← hq]
  subst hstmt
  apply wp_guard_monitor
  · intro r hb
    rw [Handles.step_bindParam]
    exact throwStmtError_handles hr (Or.inl rfl) hfresh fun _ => ⟨_, rfl, Or.inl rfl⟩
  intro r hb
  rw [Handles.step_bindParam]
  apply wp_guard_monitor
  · rintro r rfl
    rw [Handles.step_execute_failed hr]
    exact throwStmtError_handles hr (Or.inl rfl) hfresh fun _ => ⟨_, rfl, Or.inl rfl⟩
  rintro (_ | _) hb
  swap
  · exact absurd rfl hb
  have hexec : (h.push e .none).step ⟨.mysqlStmtExecute e.stmt, false⟩ =
      h.push e (.statement e.stmt false) := by
    rw [Handles.step_execute hr hquery]
    simp [selectAccount, isSelect, isInsert]
  rw [hexec]
  apply wp_guard_monitor
  · rintro r rfl
    rw [Handles.step_stmtStoreResult]
    exact throwStmtError_handles hr (Or.inr ⟨_, rfl⟩) hfresh fun _ => ⟨_, rfl, Or.inl rfl⟩
  rintro (_ | _) hb
  swap
  · exact absurd rfl hb
  rw [Handles.step_stmtStoreResult]
  apply wp_lift_monitor
  intro numRows
  rw [Handles.step_stmtNumRows]
  apply wp_lift_monitor
  rintro ⟨⟩
  rw [Bool.not_false, Handles.step_stmtFreeResult]
  have hclose : ∀ failed, (h.push { e with freed := true } .none).step
      ⟨.mysqlStmtClose e.stmt, failed⟩ = { h with closeRefused := h.closeRefused || failed } := by
    intro failed
    simpa using Handles.step_stmtClose (e := { e with freed := true }) (b := failed)
      hr.read (Or.inl rfl)
  apply wp_guard_monitor
  · rintro r rfl
    rw [hclose, Bool.or_true]
    exact throwCloseError_handles (h := { h with closeRefused := true }) hr.isOpen
      fun _ m hm => ⟨_, rfl, Or.inr ⟨m, rfl, hm⟩⟩
  rintro (_ | _) hb
  swap
  · exact absurd rfl hb
  rw [hclose, Bool.or_false]
  by_cases hn : numRows = 0
  · simp only [if_pos hn]
    apply wp_lift_monitor
    intro _
    rw [Handles.step_close hr.isOpen]
    exact wp_throw fun _ _ => Or.inl rfl
  · simp only [if_neg hn]
    exact wp_return fun _ _ => rfl

theorem Handles.step_realQuery {query : Sql.Statement} {failed : Bool} (hr : h.Ready conn) :
    h.step ⟨.mysqlRealQuery conn query, failed⟩ =
      { h with pending := if !failed && isSelect query then .query conn else .none } := by
  cases failed <;> simp [step, opens, hr.isOpen, hr.conns_isEmpty, hr.read]

theorem checkPrizeTable_handles (hr : h.Ready conn) :
    (checkPrizeTable conn).run.wp (monitor Handles.step) .alone
      (fun r h' _ => h' = match r with | .ok _ => h | .error _ => h.closeConn conn) h () := by
  have hidle : { h with pending := .none } = h := by rw [← hr.read]
  unfold checkPrizeTable
  apply wp_lift_monitor
  rintro (_ | _)
  · rw [Handles.step_realQuery hr]
    apply wp_lift_monitor
    rintro (_ | result)
    · have hnone : Handles.step { h with pending := .query conn } ⟨.mysqlStoreResult conn, none⟩ =
          h := by
        simp [Handles.step, Handles.opens, hr.isOpen, hidle]
      simp only [checkTableQuery, isSelect, Bool.not_false, Bool.true_and, if_true]
      rw [hnone]
      exact throwConnError_handles hr.isOpen fun _ => rfl
    · apply wp_lift_last
      intro _
      simp [Handles.step, Handles.opens, hr.isOpen, checkTableQuery, isSelect, hidle]
  · rw [Handles.step_realQuery hr, Bool.not_true, Bool.false_and, if_neg Bool.false_ne_true, hidle]
    apply wp_lift_monitor
    intro errorNumber
    rw [Handles.step_errno hr.isOpen]
    by_cases hn : errorNumber = Sql.erNoSuchTable
    · simp only [if_pos hn]
      apply wp_lift_monitor
      intro failed
      have hcreate : h.step ⟨.mysqlRealQuery conn createTableSql, failed⟩ = h := by
        rw [Handles.step_realQuery hr]
        simpa [createTableSql, isSelect] using hidle
      rw [hcreate]
      cases failed with
      | false => exact wp_return fun _ _ => rfl
      | true => exact throwConnError_handles hr.isOpen fun _ => rfl
    · simp only [if_neg hn]
      apply wp_lift_monitor
      intro what
      rw [Handles.step_error hr.isOpen]
      apply wp_lift_monitor
      intro _
      rw [Handles.step_close hr.isOpen]
      exact wp_throw fun _ _ => rfl

theorem insertPrize_handles {account : Bytes} {world charguid item count : CInt}
    (hr : h.Ready conn) :
    (insertPrize conn account world charguid item count).run.wp (monitor Handles.step) .alone
      (fun r h' _ => h' = match r with
        | .ok _ => { h with inserted := true }
        | .error _ => h.closeConn conn) h () := by
  unfold insertPrize
  apply wp_lift_monitor
  rintro (_ | stmt)
  · rw [Handles.step_stmtInit_null hr.isOpen]
    exact throwConnError_handles hr.isOpen fun _ => rfl
  rw [Handles.step_stmtInit hr]
  apply wp_guard_monitor
  · rintro r hb
    rw [Handles.step_prepare (e := { stmt }) hr, if_pos hb]
    exact throwStmtError_handles (e := { stmt }) hr (Or.inl rfl) rfl fun _ => ⟨_, rfl, rfl⟩
  rintro r hb
  rw [Handles.step_prepare (e := { stmt }) hr, if_neg hb]
  generalize hq : ({ stmt, query := some insertQuery } : OpenStmt) = e
  have hstmt : stmt = e.stmt := by rw [← hq]
  have hfresh : e.freed = false := by rw [← hq]
  have hquery : e.query = some insertQuery := by rw [← hq]
  subst hstmt
  apply wp_lift_monitor
  intro timestamp
  rw [Handles.step_getCurrentTime]
  apply wp_guard_monitor
  · intro r hb
    rw [Handles.step_bindParam]
    exact throwStmtError_handles hr (Or.inl rfl) hfresh fun _ => ⟨_, rfl, rfl⟩
  intro r hb
  rw [Handles.step_bindParam]
  apply wp_guard_monitor
  · rintro r rfl
    rw [Handles.step_execute_failed hr]
    exact throwStmtError_handles hr (Or.inl rfl) hfresh fun _ => ⟨_, rfl, rfl⟩
  rintro (_ | _) hb
  swap
  · exact absurd rfl hb
  have hexec : (h.push e .none).step ⟨.mysqlStmtExecute e.stmt, false⟩ =
      { h with inserted := true }.push e .none := by
    rw [Handles.step_execute hr hquery]
    simp [insertQuery, isSelect, isInsert]
  rw [hexec]
  apply wp_lift_monitor
  intro failed
  apply wp_return
  rintro _ _
  rw [Handles.step_stmtClose (h := { h with inserted := true }) hr.read (Or.inl rfl), hfresh]
  simp

/-- What a helper does to the handles: on a return they are as before, on a
throw the connection has been closed once, with nothing of the helper's own
still held. -/
structure Contract (conn : Mysql) (h : Handles) (r : Except Bytes Unit) (h' : Handles) : Prop where
  returned : r = .ok () → conn ∈ h'.conns ∧ h'.pending = .none ∧ h'.stmts = h.stmts ∧
    h'.results = h.results ∧ h'.closings = h.closings
  thrown : ∀ e, r = .error e → h'.conns = h.conns.erase conn ∧
    h'.closings = h.closings ++ [⟨conn, h.stmts, h.results, .none, h.inserted⟩]
  inSync : h'.outOfSync = h.outOfSync

theorem contract_of_return {h' : Handles} (hr : h'.Ready conn) (hs : h'.stmts = h.stmts)
    (hres : h'.results = h.results) (hcl : h'.closings = h.closings)
    (hsync : h'.outOfSync = h.outOfSync) : Contract conn h (.ok ()) h' where
  returned _ := ⟨hr.isOpen, hr.read, hs, hres, hcl⟩
  thrown _ he := by cases he
  inSync := hsync

theorem contract_of_throw {e : Bytes} (hr : h.Ready conn) {c m : Bool} :
    Contract conn h (.error e) { h.closeConn conn with closeRefused := c, misused := m } where
  returned he := by cases he
  thrown _ _ := ⟨rfl, by simp [Handles.closeConn, hr.read]⟩
  inSync := rfl

theorem AccountExit.contract {r : Except Bytes Unit} {h' : Handles} (hr : h.Ready conn)
    (he : AccountExit h conn r h') : Contract conn h r h' := by
  cases r with
  | ok u =>
    obtain rfl : h' = h := he
    exact contract_of_return hr rfl rfl rfl rfl
  | error e =>
    rcases he with rfl | ⟨m, rfl, _⟩
    · exact contract_of_throw hr
    · exact contract_of_throw hr

theorem checkPrizeTable_contract (hr : h.Ready conn) :
    (checkPrizeTable conn).run.wp (monitor Handles.step) .alone
      (fun r h' _ => Contract conn h r h') h () := by
  apply wp_mono (checkPrizeTable_handles hr)
  rintro (e | _) h' _ rfl
  · exact contract_of_throw hr
  · exact contract_of_return hr rfl rfl rfl rfl

theorem insertPrize_contract {account : Bytes} {world charguid item count : CInt}
    (hr : h.Ready conn) :
    (insertPrize conn account world charguid item count).run.wp (monitor Handles.step) .alone
      (fun r h' _ => Contract conn h r h') h () := by
  apply wp_mono (insertPrize_handles hr)
  rintro (e | _) h' _ rfl
  · exact contract_of_throw hr
  · exact contract_of_return ⟨hr.isOpen, hr.read⟩ rfl rfl rfl rfl

def helperChain (conn : Mysql) (account : Bytes) (world charguid item count : CInt) :
    Db Unit := do
  checkAccountExists conn account
  checkPrizeTable conn
  insertPrize conn account world charguid item count

theorem helperChain_contract {account : Bytes} {world charguid item count : CInt}
    (hr : h.Ready conn) :
    (helperChain conn account world charguid item count).run.wp (monitor Handles.step) .alone
      (fun r h' _ => Contract conn h r h') h () := by
  apply wp_seq
  apply wp_mono (checkAccountExists_handles hr)
  rintro (e | _) h' _ he
  · exact fun _ _ => he.contract hr
  obtain rfl : h' = h := he
  apply wp_seq
  apply wp_mono (checkPrizeTable_handles hr)
  rintro (e | _) h'' _ rfl
  · exact fun _ _ => contract_of_throw hr
  exact insertPrize_contract hr

/-- Every sequence of results of its calls leads `p` to an exit of the contract. -/
def MeetsContract (conn : Mysql) (h : Handles) (p : Db Unit) : Prop :=
  ∀ o, Contract conn h (p.run.trace o).2 ((p.run.trace o).1.foldl Handles.step h)

theorem meetsContract_of_wp {p : Db Unit}
    (hp : p.run.wp (monitor Handles.step) .alone (fun r h' _ => Contract conn h r h') h ()) :
    MeetsContract conn h p := fun o =>
  trace_of_wp (Q := fun r h' _ => Contract conn h r h') hp o

theorem helpers_meet_contract (account : Bytes) (world charguid item count : CInt)
    (hr : h.Ready conn) :
    MeetsContract conn h (checkAccountExists conn account) ∧
    MeetsContract conn h (checkPrizeTable conn) ∧
    MeetsContract conn h (insertPrize conn account world charguid item count) ∧
    MeetsContract conn h (helperChain conn account world charguid item count) :=
  ⟨meetsContract_of_wp (wp_mono (checkAccountExists_handles hr) fun _ _ _ he => he.contract hr),
    meetsContract_of_wp (checkPrizeTable_contract hr),
    meetsContract_of_wp (insertPrize_contract hr),
    meetsContract_of_wp (helperChain_contract hr)⟩

theorem helpers_meet_contract_fresh :
    (Handles.mk [⟨1⟩] [] [] .none [] false false false false false false).Ready ⟨1⟩ ∧
    MeetsContract ⟨1⟩ (Handles.mk [⟨1⟩] [] [] .none [] false false false false false false)
      (helperChain ⟨1⟩ (ascii "admin") 0 1 20101001 1) :=
  have hr : (Handles.mk [⟨1⟩] [] [] .none [] false false false false false false).Ready ⟨1⟩ :=
    ⟨by decide, rfl⟩
  ⟨hr, (helpers_meet_contract (ascii "admin") 0 1 20101001 1 hr).2.2.2⟩

end PrizeSender
