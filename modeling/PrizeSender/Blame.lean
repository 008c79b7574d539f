import PrizeSender.DbAction

/-! What is thrown names the first call that has failed. -/

namespace PrizeSender

open Prog

def probeFailed : Bytes :=
  ascii "Error when checking existence of 'account_prize' with SELECT: "

/-- The text for a call that has failed; `probed` tells whether the prize table
has been looked for, and so which of the two statements is at work. -/
def failure? (probed : Bool) : DbEvent → Option Bytes
  | ⟨.mysqlInit, none⟩ => ascii "mysql_init() failed. Not enough memory?"
  | ⟨.mysqlRealConnect .., none⟩ => ascii "mysql_real_connect() failed: "
  | ⟨.mysqlStmtInit _, none⟩ =>
    ascii (if probed then "mysql_stmt_init() failed: " else "Failed to initialize MySQL statement: ")
  | ⟨.mysqlStmtPrepare .., true⟩ => ascii (if probed then "mysql_stmt_prepare() failed: "
    else "Failed to prepare MySQL statement: ")
  | ⟨.mysqlStmtBindParam .., true⟩ => ascii (if probed then "mysql_stmt_bind_param() failed: "
    else "Failed to bind parameters for MySQL statement: ")
  | ⟨.mysqlStmtExecute _, true⟩ => ascii (if probed then "mysql_stmt_execute() failed: "
    else "Failed to execute MySQL statement: ")
  | ⟨.mysqlStmtStoreResult _, true⟩ => ascii "Failed to store MySQL statement result: "
  -- after the INSERT it is swallowed
  | ⟨.mysqlStmtClose _, true⟩ => if probed then none else ascii "Failed to close MySQL statement: "
  | ⟨.mysqlRealQuery _ (.createTable ..), true⟩ => ascii
    "Failed to create table 'account_prize' (after detecting ER_NO_SUCH_TABLE): "
  -- a probe that has failed is judged by its error number
  | ⟨.mysqlErrno _, errno⟩ => if errno = Sql.erNoSuchTable then none else probeFailed
  | ⟨.mysqlStoreResult _, none⟩ => ascii
    "Failed to process/store result from 'SELECT 1 FROM account_prize' (table exists): "
  | _ => none

def errorText? : DbEvent → Option Bytes
  | ⟨.mysqlError _, text⟩ => some text
  | ⟨.mysqlStmtError _, text⟩ => some text
  | _ => none

/-- What a run has come to: the text for the first call that has failed, and the
first error text that was asked for after it. -/
structure Blame where
  probed : Bool := false
  /-- the account check has found no row -/
  missing : Bool := false
  failed : Option Bytes := none
  text : Option Bytes := none

namespace Blame

def step (b : Blame) (e : DbEvent) : Blame :=
  match b.failed with
  | none =>
    { b with
      probed := b.probed || e.1 matches .mysqlRealQuery ..
      missing := b.missing || e matches ⟨.mysqlStmtNumRows _, 0⟩
      failed := failure? b.probed e }
  | some _ => { b with text := b.text.or (errorText? e) }

/-- The run has thrown the text for the first call that has failed, followed by
the error text, or that there is no such account; or nothing has failed. -/
def Explains (b : Blame) (account : Bytes) : Except Bytes Unit → Prop
  | .ok _ => b.failed = none ∧ b.missing = false
  | .error what =>
    match b.failed with
    | some failed => failed ++ b.text.getD [] <+: what
    | none => b.missing = true ∧ what = accountMissing account

variable {b : Blame} {conn : Mysql} {stmt : MysqlStmt} {account failed : Bytes}

theorem throwConnError_blames {Q : Except Bytes Unit → Blame → Unit → Prop}
    (hfailed : b.failed = some failed) (htext : b.text = none)
    (hq : ∀ what, Q (.error (failed ++ what)) { b with text := some what } ()) :
    (throwConnError conn failed).run.wp (monitor step) .alone Q b () := by
  obtain ⟨probed, missing, _, _⟩ := b
  cases hfailed
  cases htext
  apply wp_lift_monitor
  intro what
  apply wp_lift_monitor
  intro _
  exact wp_throw fun _ _ => hq what

theorem throwStmtError_blames {Q : Except Bytes Unit → Blame → Unit → Prop}
    (hfailed : b.failed = some failed) (htext : b.text = none)
    (hq : ∀ what, Q (.error (failed ++ what)) { b with text := some what } ()) :
    (throwStmtError conn stmt failed).run.wp (monitor step) .alone Q b () := by
  obtain ⟨probed, missing, _, _⟩ := b
  cases hfailed
  cases htext
  apply wp_lift_monitor
  intro what
  apply wp_lift_monitor
  intro _
  apply wp_lift_monitor
  intro _
  exact wp_throw fun _ _ => hq what

/-- How a helper leaves the automaton: as it was, or with what it throws
explained. -/
def Exit (probed : Bool) (account : Bytes) : Except Bytes Unit → Blame → Prop
  | .ok _, b => b = { probed }
  | .error what, b => b.Explains account (.error what)

theorem exit_failed {probed p m : Bool} (what rest : Bytes) :
    Exit probed account (.error (failed ++ what ++ rest)) ⟨p, m, some failed, some what⟩ :=
  List.prefix_append _ _

theorem exit_thrown {probed p m : Bool} (what : Bytes) :
    Exit probed account (.error (failed ++ what)) ⟨p, m, some failed, some what⟩ :=
  List.prefix_rfl

theorem throwCloseError_blames {m : Bool} {Q : Except Bytes Unit → Blame → Unit → Prop}
    (hq : ∀ what rest, Q (.error (ascii "Failed to close MySQL statement: " ++ what ++ rest))
      ⟨false, m, some (ascii "Failed to close MySQL statement: "), some what⟩ ()) :
    (throwCloseError conn stmt).run.wp (monitor step) .alone Q
      ⟨false, m, some (ascii "Failed to close MySQL statement: "), none⟩ () := by
  apply wp_lift_monitor
  intro what
  apply wp_lift_monitor
  intro second
  split
  next =>
    apply wp_lift_monitor
    intro rest
    apply wp_lift_monitor
    intro _
    exact wp_throw fun _ _ => hq what rest
  next =>
    apply wp_lift_monitor
    intro _
    have hq := hq what []
    rw [List.append_nil] at hq
    exact wp_throw fun _ _ => hq

theorem checkAccountExists_blames :
    (checkAccountExists conn account).run.wp (monitor step) .alone
      (fun r b _ => Exit false account r b) {} () := by
  unfold checkAccountExists
  apply wp_lift_monitor
  rintro (_ | stmt)
  · exact throwConnError_blames rfl rfl exit_thrown
  apply wp_check_monitor fun _ => Bool.eq_false_of_not_eq_true
  · rintro _ rfl
    exact throwStmtError_blames rfl rfl fun what => ⟨_, rfl, exit_thrown what⟩
  apply wp_check_monitor fun _ => Bool.eq_false_of_not_eq_true
  · rintro _ rfl
    exact throwStmtError_blames rfl rfl fun what => ⟨_, rfl, exit_thrown what⟩
  apply wp_check_monitor fun _ => Bool.eq_false_of_not_eq_true
  · rintro _ rfl
    exact throwStmtError_blames rfl rfl fun what => ⟨_, rfl, exit_thrown what⟩
  apply wp_check_monitor fun _ => Bool.eq_false_of_not_eq_true
  · rintro _ rfl
    exact throwStmtError_blames rfl rfl fun what => ⟨_, rfl, exit_thrown what⟩
  apply wp_lift_monitor
  intro numRows
  apply wp_lift_monitor
  rintro ⟨⟩
  apply wp_check_monitor fun _ => Bool.eq_false_of_not_eq_true
  · rintro _ rfl
    exact throwCloseError_blames fun what rest => ⟨_, rfl, exit_failed what rest⟩
  by_cases hn : numRows = 0
  · subst hn
    apply wp_lift_monitor
    intro _
    exact wp_throw fun _ _ => ⟨rfl, rfl⟩
  · simp only [if_neg hn]
    apply wp_return
    intro _ _
    cases numRows with
    | zero => exact absurd rfl hn
    | succ k => rfl

theorem checkPrizeTable_blames (account : Bytes) :
    (checkPrizeTable conn).run.wp (monitor step) .alone
      (fun r b _ => Exit true account r b) {} () := by
  unfold checkPrizeTable
  apply wp_lift_monitor
  rintro (_ | _)
  · apply wp_lift_monitor
    rintro (_ | result)
    · exact throwConnError_blames rfl rfl exit_thrown
    · exact wp_lift_last fun _ => rfl
  apply wp_lift_monitor
  intro errno
  by_cases hn : errno = Sql.erNoSuchTable
  · subst hn
    apply wp_lift_monitor
    rintro (_ | _)
    · exact wp_return fun _ _ => rfl
    · exact throwConnError_blames rfl rfl exit_thrown
  · simp only [if_neg hn]
    have hprobe : step {} ⟨.mysqlRealQuery conn checkTableQuery, true⟩ = { probed := true } := rfl
    have herrno : step { probed := true } ⟨.mysqlErrno conn, errno⟩ =
        { probed := true, failed := some probeFailed } := by
      simp [step, failure?, hn]
    rw [hprobe, herrno]
    apply wp_lift_monitor
    intro what
    apply wp_lift_monitor
    intro _
    apply wp_throw
    rintro _ _
    exact (List.prefix_append _ _).trans ((List.prefix_append _ _).trans (List.prefix_append _ _))

theorem insertPrize_blames {world charguid item count : CInt} :
    (insertPrize conn account world charguid item count).run.wp (monitor step) .alone
      (fun r b _ => Exit true account r b) { probed := true } () := by
  unfold insertPrize
  apply wp_lift_monitor
  rintro (_ | stmt)
  · exact throwConnError_blames rfl rfl exit_thrown
  apply wp_check_monitor fun _ => Bool.eq_false_of_not_eq_true
  · rintro _ rfl
    exact throwStmtError_blames rfl rfl fun what => ⟨_, rfl, exit_thrown what⟩
  apply wp_lift_monitor
  intro timestamp
  apply wp_check_monitor fun _ => Bool.eq_false_of_not_eq_true
  · rintro _ rfl
    exact throwStmtError_blames rfl rfl fun what => ⟨_, rfl, exit_thrown what⟩
  apply wp_check_monitor fun _ => Bool.eq_false_of_not_eq_true
  · rintro _ rfl
    exact throwStmtError_blames rfl rfl fun what => ⟨_, rfl, exit_thrown what⟩
  apply wp_lift_monitor
  rintro (_ | _)
  · exact wp_return fun _ _ => rfl
  · exact wp_return fun _ _ => rfl

theorem statements_blames {world charguid item count : CInt} :
    (do checkAccountExists conn account
        checkPrizeTable conn
        insertPrize conn account world charguid item count
        mysqlClose conn : Db Unit).run.wp (monitor step) .alone
      (fun r b _ => b.Explains account r) {} () := by
  apply wp_seq
  refine wp_mono checkAccountExists_blames ?_
  rintro (what | _) b _ hb
  · exact fun _ _ => hb
  obtain rfl : b = {} := hb
  apply wp_seq
  refine wp_mono (checkPrizeTable_blames account) ?_
  rintro (what | _) b _ hb
  · exact fun _ _ => hb
  obtain rfl : b = { probed := true } := hb
  apply wp_seq
  refine wp_mono insertPrize_blames ?_
  rintro (what | _) b _ hb
  · exact fun _ _ => hb
  obtain rfl : b = { probed := true } := hb
  exact wp_lift_last fun _ => ⟨rfl, rfl⟩

theorem connected_blames {host user password dbName : Bytes} {port : BitVec 32}
    {world charguid item count : CInt} :
    (do if (← mysqlRealConnect conn host user password dbName port) = none then
          throwConnError conn (ascii "mysql_real_connect() failed: ")
        checkAccountExists conn account
        checkPrizeTable conn
        insertPrize conn account world charguid item count
        mysqlClose conn : Db Unit).run.wp (monitor step) .alone
      (fun r b _ => b.Explains account r) {} () := by
  apply wp_guard_monitor
  · rintro _ rfl
    exact throwConnError_blames rfl rfl fun what => ⟨_, rfl, List.prefix_rfl⟩
  rintro (_ | connected) hc
  · exact absurd rfl hc
  exact statements_blames

theorem processSendPrize_blames {cp : CodePage UInt16 UInt8} {dbConfig : CAppConfigDb}
    {username : WString} {world charguid item count : CInt} :
    (processSendPrize cp dbConfig username world charguid item count).run.wp (monitor step) .alone
      (fun r b _ => b.Explains (cp.encode username) r) {} () := by
  unfold processSendPrize
  apply wp_lift_monitor
  rintro (_ | conn)
  · exact wp_throw fun _ _ => List.prefix_rfl
  apply wp_lift_monitor
  rintro (_ | _)
  · exact connected_blames
  · apply wp_lift_monitor
    intro what
    apply wp_lift_monitor
    intro _
    exact connected_blames

end Blame

end PrizeSender
