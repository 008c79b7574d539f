import PrizeSender.DbAction
import PrizeSender.Interleave

namespace PrizeSender

open Prog

/-! How many calls `processSendPrize` makes at most. -/

section

variable {conn : Mysql} {stmt : MysqlStmt} {errMsg : Bytes} {rest : Unit → Db Unit}

theorem mysqlClose_within : (mysqlClose conn).run.Within 1 := fun _ => trivial

theorem throwConnError_within : (throwConnError conn errMsg).run.Within 2 := fun _ _ => trivial

theorem throwConnError_within_rest : (throwConnError conn errMsg >>= rest).run.Within 2 :=
  fun _ _ => trivial

theorem throwStmtError_within_rest : (throwStmtError conn stmt errMsg >>= rest).run.Within 3 :=
  fun _ _ _ => trivial

theorem throwCloseError_within : (throwCloseError conn stmt).run.Within 4 := by
  apply within_lift
  intro what
  apply within_lift
  intro what'
  split
  next => exact throwConnError_within
  next => exact fun _ => trivial

theorem throwCloseError_within_rest (h : ∀ u, (rest u).run.Within 1) :
    (throwCloseError conn stmt >>= rest).run.Within 5 :=
  within_seq throwCloseError_within h

theorem checkAccountExists_within {account : Bytes} :
    (checkAccountExists conn account).run.Within 13 := by
  unfold checkAccountExists
  apply within_lift
  rintro (_ | stmt)
  · exact within_mono throwConnError_within (by omega)
  apply within_lift
  rintro (_ | _)
  swap
  · exact within_mono throwStmtError_within_rest (by omega)
  apply within_lift
  rintro (_ | _)
  swap
  · exact within_mono throwStmtError_within_rest (by omega)
  apply within_lift
  rintro (_ | _)
  swap
  · exact within_mono throwStmtError_within_rest (by omega)
  apply within_lift
  rintro (_ | _)
  swap
  · exact within_mono throwStmtError_within_rest (by omega)
  apply within_lift
  intro numRows
  apply within_lift
  intro _
  have hlast : (if numRows = 0 then do
      mysqlClose conn
      throw (accountMissing account) else pure ⟨⟩ : Db Unit).run.Within 1 := by
    split
    next => exact fun _ => trivial
    next => trivial
  apply within_lift
  rintro (_ | _)
  · exact within_mono hlast (by omega)
  · exact throwCloseError_within_rest fun _ => hlast

theorem checkPrizeTable_within : (checkPrizeTable conn).run.Within 5 := by
  unfold checkPrizeTable
  apply within_lift
  rintro (_ | _)
  · apply within_lift
    rintro (_ | result)
    · exact within_mono throwConnError_within (by omega)
    · exact fun _ => trivial
  · apply within_lift
    intro errorNumber
    split
    next =>
      apply within_lift
      rintro (_ | _)
      · trivial
      · exact throwConnError_within
    next => exact fun _ _ => trivial

theorem insertPrize_within {account : Bytes} {world charguid item count : CInt} :
    (insertPrize conn account world charguid item count).run.Within 8 := by
  unfold insertPrize
  apply within_lift
  rintro (_ | stmt)
  · exact within_mono throwConnError_within (by omega)
  apply within_lift
  rintro (_ | _)
  swap
  · exact within_mono throwStmtError_within_rest (by omega)
  apply within_lift
  intro timestamp
  apply within_lift
  rintro (_ | _)
  swap
  · exact within_mono throwStmtError_within_rest (by omega)
  apply within_lift
  rintro (_ | _)
  swap
  · exact within_mono throwStmtError_within_rest (by omega)
  exact fun _ => trivial

end

theorem processSendPrize_within {cp : CodePage UInt16 UInt8} {dbConfig : CAppConfigDb}
    {username : WString} {world charguid item count : CInt} :
    (processSendPrize cp dbConfig username world charguid item count).run.Within 32 := by
  have hrest : ∀ conn, (do
      let host := cString (cp.encode dbConfig.mHost)
      let user := cString (cp.encode dbConfig.mUsername)
      let password := cString (cp.encode dbConfig.mPassword)
      let dbName := cString (cp.encode dbConfig.mName)
      if (← mysqlRealConnect conn host user password dbName (dbConfig.mPort.setWidth 32)) = none then
        throwConnError conn (ascii "mysql_real_connect() failed: ")
      let account := cp.encode username
      checkAccountExists conn account
      checkPrizeTable conn
      insertPrize conn account world charguid item count
      mysqlClose conn : Db Unit).run.Within 28 := by
    intro conn
    apply within_lift
    rintro (_ | conn')
    · exact within_mono throwConnError_within_rest (by omega)
    exact within_seq checkAccountExists_within fun _ =>
      within_seq checkPrizeTable_within fun _ =>
        within_seq insertPrize_within fun _ => mysqlClose_within
  unfold processSendPrize
  apply within_lift
  rintro (_ | conn)
  · trivial
  apply within_lift
  rintro (_ | _)
  · exact within_mono (hrest conn) (by omega)
  · apply within_lift
    intro what
    apply within_lift
    intro _
    exact hrest conn

end PrizeSender
