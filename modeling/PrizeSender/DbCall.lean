import PrizeSender.Trace
import PrizeSender.Sql
import PrizeSender.Config

namespace PrizeSender

structure Mysql where
  address : Nat
  deriving DecidableEq, Repr

structure MysqlStmt where
  address : Nat
  deriving DecidableEq, Repr

structure MysqlRes where
  address : Nat
  deriving DecidableEq, Repr

/-- A parameter buffer: `MYSQL_TYPE_STRING` with its `buffer_length`, or
`MYSQL_TYPE_LONG`. -/
inductive MysqlBind where
  | string (buffer : Bytes) (bufferLength : Nat)
  | long (buffer : CInt)
  deriving DecidableEq, Repr

/-- The calls `dbAction.cpp` makes of libmariadb and of the clock. -/
inductive DbCall where
  | mysqlInit
  | mysqlOptionsv (conn : Mysql) (sslVerifyServerCert : Bool)
  | mysqlRealConnect (conn : Mysql) (host user password dbName : Bytes) (port : BitVec 32)
  | mysqlError (conn : Mysql)
  | mysqlErrno (conn : Mysql)
  | mysqlClose (conn : Mysql)
  | mysqlStmtInit (conn : Mysql)
  | mysqlStmtPrepare (stmt : MysqlStmt) (query : Sql.Statement)
  | mysqlStmtBindParam (stmt : MysqlStmt) (params : List MysqlBind)
  | mysqlStmtExecute (stmt : MysqlStmt)
  | mysqlStmtStoreResult (stmt : MysqlStmt)
  | mysqlStmtNumRows (stmt : MysqlStmt)
  | mysqlStmtFreeResult (stmt : MysqlStmt)
  | mysqlStmtError (stmt : MysqlStmt)
  | mysqlStmtClose (stmt : MysqlStmt)
  | mysqlRealQuery (conn : Mysql) (query : Sql.Statement)
  | mysqlStoreResult (conn : Mysql)
  | mysqlFreeResult (result : MysqlRes)
  | getCurrentTime
  deriving DecidableEq, Repr

def DbCall.conn? : DbCall → Option Mysql
  | .mysqlOptionsv conn _ => some conn
  | .mysqlRealConnect conn .. => some conn
  | .mysqlError conn => some conn
  | .mysqlErrno conn => some conn
  | .mysqlClose conn => some conn
  | .mysqlStmtInit conn => some conn
  | .mysqlRealQuery conn _ => some conn
  | .mysqlStoreResult conn => some conn
  | _ => none

def DbCall.stmt? : DbCall → Option MysqlStmt
  | .mysqlStmtPrepare stmt _ => some stmt
  | .mysqlStmtBindParam stmt _ => some stmt
  | .mysqlStmtExecute stmt => some stmt
  | .mysqlStmtStoreResult stmt => some stmt
  | .mysqlStmtNumRows stmt => some stmt
  | .mysqlStmtFreeResult stmt => some stmt
  | .mysqlStmtError stmt => some stmt
  | .mysqlStmtClose stmt => some stmt
  | _ => none

/-- The calls that send a statement to the server. -/
def DbCall.sends : DbCall → Bool
  | .mysqlStmtPrepare .. => true
  | .mysqlStmtExecute _ => true
  | .mysqlRealQuery .. => true
  | _ => false

/-- What a call returns: a null pointer is `none`, an `int` or `my_bool` status
is `true` when it is not zero. -/
abbrev DbCall.Reply : DbCall → Type
  | .mysqlInit => Option Mysql
  | .mysqlOptionsv .. => Bool
  | .mysqlRealConnect .. => Option Mysql
  | .mysqlError _ => Bytes
  | .mysqlErrno _ => Sql.Errno
  | .mysqlClose _ => Unit
  | .mysqlStmtInit _ => Option MysqlStmt
  | .mysqlStmtPrepare .. => Bool
  | .mysqlStmtBindParam .. => Bool
  | .mysqlStmtExecute _ => Bool
  | .mysqlStmtStoreResult _ => Bool
  | .mysqlStmtNumRows _ => Nat
  | .mysqlStmtFreeResult _ => Unit
  | .mysqlStmtError _ => Bytes
  | .mysqlStmtClose _ => Bool
  | .mysqlRealQuery .. => Bool
  | .mysqlStoreResult _ => Option MysqlRes
  | .mysqlFreeResult _ => Unit
  | .getCurrentTime => BitVec 64

abbrev DbEvent := Prog.Event DbCall DbCall.Reply

/-- Database code: calls, and the `what()` of a thrown `std::runtime_error`. -/
abbrev Db := ExceptT Bytes (Prog DbCall DbCall.Reply)

abbrev Db.call (c : DbCall) : Db c.Reply := Prog.lift c

def mysqlInit : Db (Option Mysql) := Db.call .mysqlInit

def mysqlOptionsv (conn : Mysql) (verify : Bool) : Db Bool :=
  Db.call (.mysqlOptionsv conn verify)

def mysqlRealConnect (conn : Mysql) (host user password dbName : Bytes) (port : BitVec 32) :
    Db (Option Mysql) :=
  Db.call (.mysqlRealConnect conn host user password dbName port)

def mysqlError (conn : Mysql) : Db Bytes := Db.call (.mysqlError conn)

def mysqlErrno (conn : Mysql) : Db Sql.Errno := Db.call (.mysqlErrno conn)

def mysqlClose (conn : Mysql) : Db Unit := Db.call (.mysqlClose conn)

def mysqlStmtInit (conn : Mysql) : Db (Option MysqlStmt) := Db.call (.mysqlStmtInit conn)

def mysqlStmtPrepare (stmt : MysqlStmt) (query : Sql.Statement) : Db Bool :=
  Db.call (.mysqlStmtPrepare stmt query)

def mysqlStmtBindParam (stmt : MysqlStmt) (params : List MysqlBind) : Db Bool :=
  Db.call (.mysqlStmtBindParam stmt params)

def mysqlStmtExecute (stmt : MysqlStmt) : Db Bool := Db.call (.mysqlStmtExecute stmt)

def mysqlStmtStoreResult (stmt : MysqlStmt) : Db Bool := Db.call (.mysqlStmtStoreResult stmt)

def mysqlStmtNumRows (stmt : MysqlStmt) : Db Nat := Db.call (.mysqlStmtNumRows stmt)

def mysqlStmtFreeResult (stmt : MysqlStmt) : Db Unit := Db.call (.mysqlStmtFreeResult stmt)

def mysqlStmtError (stmt : MysqlStmt) : Db Bytes := Db.call (.mysqlStmtError stmt)

def mysqlStmtClose (stmt : MysqlStmt) : Db Bool := Db.call (.mysqlStmtClose stmt)

def mysqlRealQuery (conn : Mysql) (query : Sql.Statement) : Db Bool :=
  Db.call (.mysqlRealQuery conn query)

def mysqlStoreResult (conn : Mysql) : Db (Option MysqlRes) := Db.call (.mysqlStoreResult conn)

def mysqlFreeResult (result : MysqlRes) : Db Unit := Db.call (.mysqlFreeResult result)

def getCurrentTime : Db (BitVec 64) := Db.call .getCurrentTime

end PrizeSender
