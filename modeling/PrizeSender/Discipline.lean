import PrizeSender.Handles
import PrizeSender.Watch

/-! What comes before the calls that send a statement or use its result. -/

namespace PrizeSender

open Prog

/-- The parameter markers of a statement's text. -/
def markers : Sql.Statement → Nat
  | .selectOne .. => 1
  | .insert _ _ values => values.count .param
  | _ => 0

inductive Phase where
  | closed
  | fresh
  | prepared (query : Sql.Statement)
  | bound (query : Sql.Statement)
  | executed (query : Sql.Statement)
  | stored
  | freed
  deriving DecidableEq, Repr

/-- How far each statement has come, and the last call. -/
structure Progress where
  phase : MysqlStmt → Phase := fun _ => .closed
  last : Option DbEvent := none

namespace Progress

variable {p : Progress} {conn : Mysql} {stmt : MysqlStmt} {query : Sql.Statement}

def enter (p : Progress) (stmt : MysqlStmt) (phase : Phase) : MysqlStmt → Phase :=
  Function.update p.phase stmt phase

def phaseAfter (p : Progress) : DbEvent → MysqlStmt → Phase
  | ⟨.mysqlStmtInit _, some stmt⟩ => p.enter stmt .fresh
  | ⟨.mysqlStmtPrepare stmt query, false⟩ => p.enter stmt (.prepared query)
  | ⟨.mysqlStmtBindParam stmt _, false⟩ =>
    match p.phase stmt with
    | .prepared query => p.enter stmt (.bound query)
    | _ => p.phase
  | ⟨.mysqlStmtExecute stmt, false⟩ =>
    match p.phase stmt with
    | .bound query => p.enter stmt (.executed query)
    | _ => p.phase
  | ⟨.mysqlStmtStoreResult stmt, false⟩ => p.enter stmt .stored
  | ⟨.mysqlStmtFreeResult stmt, _⟩ => p.enter stmt .freed
  | ⟨.mysqlStmtClose stmt, _⟩ => p.enter stmt .closed
  | _ => p.phase

def step (p : Progress) (e : DbEvent) : Progress := ⟨p.phaseAfter e, some e⟩

/-- What may be called next: only the four texts are sent, whatever the account;
a statement is prepared, bound with a buffer for each marker and executed in this
order; the result of a SELECT alone is stored, and then counted and freed; and
the table is created only after the server has said that there is none. The
calls that open, set up and close a connection, `mysqlStmtInit`, `mysqlStmtClose`
and those that ask for an error text are left free. -/
def Allows (p : Progress) : DbCall → Prop
  | .mysqlStmtPrepare stmt query =>
    p.phase stmt = .fresh ∧ query ∈ [selectAccount, insertQuery]
  | .mysqlStmtBindParam stmt params =>
    ∃ query, p.phase stmt = .prepared query ∧ params.length = markers query
  | .mysqlStmtExecute stmt => ∃ query, p.phase stmt = .bound query
  | .mysqlStmtStoreResult stmt => ∃ query, p.phase stmt = .executed query ∧ isSelect query
  | .mysqlStmtNumRows stmt => p.phase stmt = .stored
  | .mysqlStmtFreeResult stmt => p.phase stmt = .stored
  | .mysqlRealQuery conn query => query = checkTableQuery ∨
    query = createTableSql ∧ p.last = some ⟨.mysqlErrno conn, Sql.erNoSuchTable⟩
  | .mysqlErrno conn => ∃ query, p.last = some ⟨.mysqlRealQuery conn query, true⟩
  | .mysqlStoreResult conn =>
    ∃ query, p.last = some ⟨.mysqlRealQuery conn query, false⟩ ∧ isSelect query
  | .mysqlFreeResult result => ∃ conn, p.last = some ⟨.mysqlStoreResult conn, some result⟩
  | _ => True

@[simp] theorem enter_self {phase : Phase} : p.enter stmt phase stmt = phase :=
  Function.update_self _ _ _

theorem phase_init : (p.step ⟨.mysqlStmtInit conn, some stmt⟩).phase stmt = .fresh := enter_self

theorem phase_prepare : (p.step ⟨.mysqlStmtPrepare stmt query, false⟩).phase stmt = .prepared query :=
  enter_self

theorem phase_bindParam {params : List MysqlBind} (h : p.phase stmt = .prepared query) :
    (p.step ⟨.mysqlStmtBindParam stmt params, false⟩).phase stmt = .bound query := by
  simp [step, phaseAfter, h]

theorem phase_execute (h : p.phase stmt = .bound query) :
    (p.step ⟨.mysqlStmtExecute stmt, false⟩).phase stmt = .executed query := by
  simp [step, phaseAfter, h]

theorem phase_stmtStoreResult : (p.step ⟨.mysqlStmtStoreResult stmt, false⟩).phase stmt = .stored :=
  enter_self

/-! Giving up makes none of the calls that are restricted. -/

theorem throwConnError_obeys {errMsg : Bytes} :
    (throwConnError conn errMsg).run.wp (monitor (watch step Allows)) .alone
      (fun x (m : Progress × Prop) _ => (∃ e, x = .error e) ∧ m.2) (p, True) () := by
  apply wp_lift_watch trivial
  intro what
  apply wp_lift_watch trivial
  intro _
  exact wp_throw fun _ _ => ⟨⟨_, rfl⟩, trivial⟩

theorem throwStmtError_obeys {errMsg : Bytes} :
    (throwStmtError conn stmt errMsg).run.wp (monitor (watch step Allows)) .alone
      (fun x (m : Progress × Prop) _ => (∃ e, x = .error e) ∧ m.2) (p, True) () := by
  apply wp_lift_watch trivial
  intro what
  apply wp_lift_watch trivial
  intro _
  apply wp_lift_watch trivial
  intro _
  exact wp_throw fun _ _ => ⟨⟨_, rfl⟩, trivial⟩

theorem throwCloseError_obeys :
    (throwCloseError conn stmt).run.wp (monitor (watch step Allows)) .alone
      (fun x (m : Progress × Prop) _ => (∃ e, x = .error e) ∧ m.2) (p, True) () := by
  apply wp_lift_watch trivial
  intro what
  apply wp_lift_watch trivial
  intro second
  split
  next => exact throwConnError_obeys
  next =>
    apply wp_lift_watch trivial
    intro _
    exact wp_throw fun _ _ => ⟨⟨_, rfl⟩, trivial⟩

theorem throwConnError_last {errMsg : Bytes} :
    (throwConnError conn errMsg).run.Obeys step Allows p :=
  wp_mono throwConnError_obeys fun _ _ _ h => h.2

theorem checkAccountExists_obeys {account : Bytes} (p : Progress) :
    (checkAccountExists conn account).run.Obeys step Allows p := by
  unfold checkAccountExists
  apply wp_lift_watch trivial
  rintro (_ | stmt)
  · exact throwConnError_last
  apply obeys_check (fun _ => Bool.eq_false_of_not_eq_true) (by exact ⟨phase_init, by simp⟩)
  · exact fun _ _ => throwStmtError_obeys
  apply obeys_check (fun _ => Bool.eq_false_of_not_eq_true) (by exact ⟨_, phase_prepare, rfl⟩)
  · exact fun _ _ => throwStmtError_obeys
  have hbound : (step (step (step p ⟨.mysqlStmtInit conn, some stmt⟩)
      ⟨.mysqlStmtPrepare stmt selectAccount, false⟩)
      ⟨.mysqlStmtBindParam stmt [.string account (strlen account)], false⟩).phase stmt =
      .bound selectAccount := phase_bindParam phase_prepare
  apply obeys_check (fun _ => Bool.eq_false_of_not_eq_true) (by exact ⟨_, hbound⟩)
  · exact fun _ _ => throwStmtError_obeys
  apply obeys_check (fun _ => Bool.eq_false_of_not_eq_true) (by exact ⟨_, phase_execute hbound, rfl⟩)
  · exact fun _ _ => throwStmtError_obeys
  apply wp_lift_watch (by exact phase_stmtStoreResult)
  intro numRows
  apply wp_lift_watch (by exact phase_stmtStoreResult)
  rintro ⟨⟩
  apply obeys_guard trivial
  · exact fun _ _ => throwCloseError_obeys
  intro _ _
  split
  next =>
    apply wp_lift_watch trivial
    intro _
    exact wp_throw fun _ _ => trivial
  next => exact wp_return fun _ _ => trivial

theorem checkPrizeTable_obeys (p : Progress) :
    (checkPrizeTable conn).run.Obeys step Allows p := by
  unfold checkPrizeTable
  apply wp_lift_watch (by exact Or.inl rfl)
  rintro (_ | _)
  · apply wp_lift_watch (by exact ⟨_, rfl, rfl⟩)
    rintro (_ | result)
    · exact throwConnError_last
    · exact wp_lift_last_watch ⟨_, rfl⟩ fun _ => trivial
  apply wp_lift_watch (by exact ⟨_, rfl⟩)
  intro errno
  by_cases hn : errno = Sql.erNoSuchTable
  · subst hn
    apply wp_lift_watch (by exact Or.inr ⟨rfl, rfl⟩)
    rintro (_ | _)
    · exact wp_return fun _ _ => trivial
    · exact throwConnError_last
  · simp only [if_neg hn]
    apply wp_lift_watch trivial
    intro what
    apply wp_lift_watch trivial
    intro _
    exact wp_throw fun _ _ => trivial

theorem insertPrize_obeys {account : Bytes} {world charguid item count : CInt} (p : Progress) :
    (insertPrize conn account world charguid item count).run.Obeys step Allows p := by
  unfold insertPrize
  apply wp_lift_watch trivial
  rintro (_ | stmt)
  · exact throwConnError_last
  apply obeys_check (fun _ => Bool.eq_false_of_not_eq_true) (by exact ⟨phase_init, by simp⟩)
  · exact fun _ _ => throwStmtError_obeys
  apply wp_lift_watch trivial
  intro timestamp
  have hprepared : (step (step (step p ⟨.mysqlStmtInit conn, some stmt⟩)
      ⟨.mysqlStmtPrepare stmt insertQuery, false⟩) ⟨.getCurrentTime, timestamp⟩).phase stmt =
      .prepared insertQuery := phase_prepare
  apply obeys_check (fun _ => Bool.eq_false_of_not_eq_true) (by exact ⟨_, hprepared, rfl⟩)
  · exact fun _ _ => throwStmtError_obeys
  apply obeys_check (fun _ => Bool.eq_false_of_not_eq_true) (by exact ⟨_, phase_bindParam hprepared⟩)
  · exact fun _ _ => throwStmtError_obeys
  apply wp_lift_watch trivial
  intro _
  exact wp_return fun _ _ => trivial

theorem helpers_obey {account : Bytes} {world charguid item count : CInt} (p : Progress) :
    (do checkAccountExists conn account
        checkPrizeTable conn
        insertPrize conn account world charguid item count
        mysqlClose conn : Db Unit).run.Obeys step Allows p :=
  obeys_seq (checkAccountExists_obeys p) fun _ p => obeys_seq (checkPrizeTable_obeys p)
    fun _ p => obeys_seq (insertPrize_obeys p) fun _ _ =>
      wp_lift_last_watch trivial fun _ => trivial

theorem connected_obeys {host user password dbName account : Bytes} {port : BitVec 32}
    {world charguid item count : CInt} (p : Progress) :
    (do if (← mysqlRealConnect conn host user password dbName port) = none then
          throwConnError conn (ascii "mysql_real_connect() failed: ")
        checkAccountExists conn account
        checkPrizeTable conn
        insertPrize conn account world charguid item count
        mysqlClose conn : Db Unit).run.Obeys step Allows p :=
  obeys_guard trivial (fun _ _ => throwConnError_obeys) fun _ _ => helpers_obey _

theorem processSendPrize_obeys {cp : CodePage UInt16 UInt8} {dbConfig : CAppConfigDb}
    {username : WString} {world charguid item count : CInt} (p : Progress) :
    (processSendPrize cp dbConfig username world charguid item count).run.Obeys step Allows p := by
  unfold processSendPrize
  apply wp_lift_watch trivial
  rintro (_ | conn)
  · exact wp_throw fun _ _ => trivial
  apply wp_lift_watch trivial
  rintro (_ | _)
  · exact connected_obeys _
  · apply wp_lift_watch trivial
    intro what
    apply wp_lift_watch trivial
    intro _
    exact connected_obeys _

end Progress

/-- Whatever libmariadb answers, `processSendPrize` keeps to `Progress.Allows`: it
sends and uses statements and results only after the calls that must come
before. -/
theorem processSendPrize_follows (cp : CodePage UInt16 UInt8) (dbConfig : CAppConfigDb)
    (username : WString) (world charguid item count : CInt) (o : Nat → (c : DbCall) → c.Reply) :
    Follows Progress.step Progress.Allows {}
      ((processSendPrize cp dbConfig username world charguid item count).run.trace o).1 :=
  (Progress.processSendPrize_obeys {}).follows o

end PrizeSender
