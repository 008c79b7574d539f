import PrizeSender.DbCall
import PrizeSender.CodePage

namespace PrizeSender

/-- SELECT 1 FROM account WHERE name = ? LIMIT 1 -/
def selectAccount : Sql.Statement := .selectOne "account" "name"

/-- SELECT EXISTS(SELECT 1 FROM account_prize) AS m -/
def checkTableQuery : Sql.Statement := .selectExists "account_prize"

/-- The columns of the CREATE TABLE text. -/
def prizeColumns : List Sql.Column := [
  { name := "id", type := .bigint, autoIncrement := true },
  { name := "account", type := .varchar 50 },
  { name := "world", type := .int, default := some (.int 0) },
  { name := "charguid", type := .intUnsigned, default := some (.int 0) },
  { name := "itemid", type := .intUnsigned, default := some (.int 0) },
  { name := "itemnum", type := .int },
  { name := "isget", type := .smallint },
  { name := "validtime", type := .int }]

def createTableSql : Sql.Statement := .createTable "account_prize" prizeColumns

/-- INSERT INTO account_prize (account, world, charguid, itemid, itemnum,
isget, validtime) VALUES (?, ?, ?, ?, ?, 0, ?) -/
def insertQuery : Sql.Statement := .insert "account_prize"
  ["account", "world", "charguid", "itemid", "itemnum", "isget", "validtime"]
  [.param, .param, .param, .param, .param, .lit (.int 0), .param]

/-- 游戏账号 '...' 不存在, the literals being the GBK bytes of the source file. -/
def accountMissing (account : Bytes) : Bytes :=
  [0xD3, 0xCE, 0xCF, 0xB7, 0xD5, 0xCB, 0xBA, 0xC5] ++ ascii " '" ++ cString account ++ ascii "' " ++
    [0xB2, 0xBB, 0xB4, 0xE6, 0xD4, 0xDA]

/-- `errMsg += mysql_error(conn); mysql_close(conn); throw`. -/
def throwConnError (conn : Mysql) (errMsg : Bytes) : Db Unit := do
  let what ← mysqlError conn
  mysqlClose conn
  throw (errMsg ++ what)

/-- `errMsg += mysql_stmt_error(stmt); mysql_stmt_close(stmt);
mysql_close(conn); throw`. -/
def throwStmtError (conn : Mysql) (stmt : MysqlStmt) (errMsg : Bytes) : Db Unit := do
  let what ← mysqlStmtError stmt
  let _ ← mysqlStmtClose stmt
  mysqlClose conn
  throw (errMsg ++ what)

/-- The exit after `mysql_stmt_close(stmt)` has failed: the closed statement is
asked twice for its error. -/
def throwCloseError (conn : Mysql) (stmt : MysqlStmt) : Db Unit := do
  let errMsg := ascii "Failed to close MySQL statement: " ++ (← mysqlStmtError stmt)
  if strlen (← mysqlStmtError stmt) = 0 then
    throwConnError conn errMsg
  else
    mysqlClose conn
    throw errMsg

def checkAccountExists (conn : Mysql) (account : Bytes) : Db Unit := do
  let some stmt ← mysqlStmtInit conn
    | throwConnError conn (ascii "Failed to initialize MySQL statement: ")
  if ← mysqlStmtPrepare stmt selectAccount then
    throwStmtError conn stmt (ascii "Failed to prepare MySQL statement: ")
  if ← mysqlStmtBindParam stmt [.string account (strlen account)] then
    throwStmtError conn stmt (ascii "Failed to bind parameters for MySQL statement: ")
  if ← mysqlStmtExecute stmt then
    throwStmtError conn stmt (ascii "Failed to execute MySQL statement: ")
  if ← mysqlStmtStoreResult stmt then
    throwStmtError conn stmt (ascii "Failed to store MySQL statement result: ")
  let numRows ← mysqlStmtNumRows stmt
  mysqlStmtFreeResult stmt
  if ← mysqlStmtClose stmt then
    throwCloseError conn stmt
  if numRows = 0 then
    mysqlClose conn
    throw (accountMissing account)

def checkPrizeTable (conn : Mysql) : Db Unit := do
  if ← mysqlRealQuery conn checkTableQuery then
    let errorNumber ← mysqlErrno conn
    if errorNumber = Sql.erNoSuchTable then
      if ← mysqlRealQuery conn createTableSql then
        throwConnError conn (ascii
          "Failed to create table 'account_prize' (after detecting ER_NO_SUCH_TABLE): ")
    else
      let what ← mysqlError conn
      mysqlClose conn
      -- `_itoa_s` takes the number as an `int`
      throw (ascii "Error when checking existence of 'account_prize' with SELECT: " ++ what ++
        ascii " (Error Code: " ++ ascii (toString errorNumber.toInt) ++ ascii ")")
  else
    let some result ← mysqlStoreResult conn
      | throwConnError conn (ascii
          "Failed to process/store result from 'SELECT 1 FROM account_prize' (table exists): ")
    mysqlFreeResult result

/-- `(int)(timestamp & 0xFFFFFFFF)`. -/
def timestampU4 (timestamp : BitVec 64) : CInt := (timestamp &&& 0xFFFFFFFF).setWidth 32

def insertParams (account : Bytes) (world charguid item count : CInt) (timestamp : BitVec 64) :
    List MysqlBind :=
  [.string account (strlen account), .long world, .long charguid, .long item, .long count,
    .long (timestampU4 timestamp)]

def insertPrize (conn : Mysql) (account : Bytes) (world charguid item count : CInt) :
    Db Unit := do
  let some stmt ← mysqlStmtInit conn
    | throwConnError conn (ascii "mysql_stmt_init() failed: ")
  if ← mysqlStmtPrepare stmt insertQuery then
    throwStmtError conn stmt (ascii "mysql_stmt_prepare() failed: ")
  let timestamp ← getCurrentTime
  if ← mysqlStmtBindParam stmt (insertParams account world charguid item count timestamp) then
    throwStmtError conn stmt (ascii "mysql_stmt_bind_param() failed: ")
  if ← mysqlStmtExecute stmt then
    throwStmtError conn stmt (ascii "mysql_stmt_execute() failed: ")
  -- a failure to close is swallowed, the row is stored
  let _ ← mysqlStmtClose stmt
  pure ()

def processSendPrize (cp : CodePage UInt16 UInt8) (dbConfig : CAppConfigDb) (username : WString)
    (world charguid item count : CInt) : Db Unit := do
  let some conn ← mysqlInit
    | throw (ascii "mysql_init() failed. Not enough memory?")
  if ← mysqlOptionsv conn false then
    -- the message is printed and the connection closed, but nothing is thrown
    let _ ← mysqlError conn
    mysqlClose conn
  let host := cString (cp.encode dbConfig.mHost)
  let user := cString (cp.encode dbConfig.mUsername)
  let password := cString (cp.encode dbConfig.mPassword)
  let dbName := cString (cp.encode dbConfig.mName)
  if (← mysqlRealConnect conn host user password dbName (dbConfig.mPort.setWidth 32)) = none then
    throwConnError conn (ascii "mysql_real_connect() failed: ")
  let account := cp.encode username
  checkAccountExists conn account
  checkPrizeTable conn
  insertPrize conn account world charguid item count
  mysqlClose conn

end PrizeSender
