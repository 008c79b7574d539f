import PrizeSender.DbAction

namespace PrizeSender

open Prog Sql

/-- How a call ends: with the server's own answer, with an error and no effect,
or with an error although the server has acted. -/
inductive Outcome where
  | answered
  | refused (errno : Errno)
  | lost (errno : Errno)
  deriving DecidableEq, Repr

/-- What is left open about one call. -/
structure Choice where
  outcome : Outcome := .answered
  text : Bytes := []
  clock : BitVec 64 := 0
  deriving DecidableEq, Repr

/-- A statement the server has acted on. -/
structure LogEntry (κ : Type) where
  sender : κ
  stmt : Statement
  params : List Value
  answer : Answer
  delivered : Bool
  deriving DecidableEq, Repr

/-- The tables, and the statements executed so far, newest first. -/
structure ServerState (κ : Type) where
  db : Database
  log : List (LogEntry κ)

/-- A database in which the account admin exists and no prize has been sent. -/
def adminDb : Database := Function.update (fun _ => none) "account" (some
  ⟨[{ name := "name", type := .varchar 50 }], [[("name", .text (ascii "admin"))]], 2⟩)

/-- What libmariadb keeps for one run of `processSendPrize`. -/
structure Client where
  fresh : Nat := 1
  query : MysqlStmt → Option Statement := fun _ => none
  params : MysqlStmt → List Value := fun _ => []
  numRows : MysqlStmt → Nat := fun _ => 0
  errno : Errno := 0

def MysqlBind.value : MysqlBind → Value
  | .string buffer bufferLength => .text (buffer.take bufferLength)
  | .long buffer => .int buffer.toInt

def Choice.fails (x : Choice) : Bool := x.outcome != .answered

/-- The server acts and its answer is lost. -/
def Choice.loses (x : Choice) : Bool :=
  match x.outcome with
  | .lost _ => true
  | _ => false

/-- What the client is told about an answer that reaches it. -/
def reply : Answer → Except Errno Nat
  | .rows n => .ok n
  | .created .. => .ok 0
  | .inserted .. => .ok 0
  | .error errno => .error errno

variable {κ : Type}

def ServerState.record (s : ServerState κ) (e : LogEntry κ) : ServerState κ :=
  ⟨e.answer.apply s.db, e :: s.log⟩

/-- Send a statement: what the client gets back, and the server afterwards. -/
def submit (sv : Sql.Server) (i : κ) (x : Choice) (s : ServerState κ) (q : Statement)
    (ps : List Value) : Except Errno Nat × ServerState κ :=
  let a := sv.respond s.db q ps
  match x.outcome with
  | .answered => (reply a, s.record ⟨i, q, ps, a, true⟩)
  | .refused errno => (.error errno, s)
  | .lost errno => (.error errno, s.record ⟨i, q, ps, a, false⟩)

/-- libmariadb and the server, as sender `i` sees them. Setting an option only
writes to the handle and is taken to succeed. -/
def serve (sv : Sql.Server) (i : κ) : Env DbCall DbCall.Reply Choice Client (ServerState κ) :=
  fun x l s c =>
  match c with
  | .mysqlInit =>
    (if x.fails then none else some ⟨l.fresh⟩, { l with fresh := l.fresh + 1 }, s)
  | .mysqlOptionsv .. => (false, l, s)
  | .mysqlRealConnect conn .. => (if x.fails then none else some conn, l, s)
  | .mysqlError _ => (x.text, l, s)
  | .mysqlErrno _ => (l.errno, l, s)
  | .mysqlClose _ => ((), l, s)
  | .mysqlStmtInit _ =>
    (if x.fails then none else some ⟨l.fresh⟩, { l with fresh := l.fresh + 1 }, s)
  | .mysqlStmtPrepare stmt q =>
    if x.fails then (true, l, s)
    else match q.refused s.db with
      | some errno => (true, l, s.record ⟨i, q, [], .error errno, true⟩)
      | none => (false, { l with query := Function.update l.query stmt (some q) }, s)
  | .mysqlStmtBindParam stmt ps =>
    (x.fails, { l with
      params := Function.update l.params stmt (ps.map MysqlBind.value) }, s)
  | .mysqlStmtExecute stmt =>
    match l.query stmt with
    | none => (true, l, s)
    | some q =>
      match submit sv i x s q (l.params stmt) with
      | (.ok n, s') => (false, { l with numRows := Function.update l.numRows stmt n }, s')
      | (.error _, s') => (true, l, s')
  | .mysqlStmtStoreResult _ => (x.fails, l, s)
  | .mysqlStmtNumRows stmt => (l.numRows stmt, l, s)
  | .mysqlStmtFreeResult _ => ((), l, s)
  | .mysqlStmtError _ => (x.text, l, s)
  | .mysqlStmtClose _ => (x.fails, l, s)
  | .mysqlRealQuery _ q =>
    match submit sv i x s q [] with
    | (.ok _, s') => (false, { l with errno := 0 }, s')
    | (.error errno, s') => (true, { l with errno := errno }, s')
  | .mysqlStoreResult _ =>
    (if x.fails then none else some ⟨l.fresh⟩, { l with fresh := l.fresh + 1 }, s)
  | .mysqlFreeResult _ => ((), l, s)
  | .getCurrentTime => (x.clock, l, s)

/-- The statements of one sender. -/
def mine [DecidableEq κ] (i : κ) (s : ServerState κ) : List (LogEntry κ) :=
  s.log.filter fun e => e.sender = i

/-- The database is what the logged answers, given one after the other, leave. -/
inductive Replays (sv : Sql.Server) (db : Database) : List (LogEntry κ) → Database → Prop
  | nil : Replays sv db [] db
  | cons {log db' e} : Replays sv db log db' → e.answer = sv.respond db' e.stmt e.params →
      Replays sv db (e :: log) (e.answer.apply db')

/-- One state comes from another by answering statements, all of them as `P`
says. -/
def Ran (sv : Sql.Server) (P : LogEntry κ → Prop) (s s' : ServerState κ) : Prop :=
  ∃ es, s'.log = es ++ s.log ∧ Replays sv s.db es s'.db ∧ ∀ e ∈ es, P e

end PrizeSender
