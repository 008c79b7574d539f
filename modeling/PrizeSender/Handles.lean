import PrizeSender.DbAction
import Mathlib.Tactic.Simps.Basic

namespace PrizeSender

open Prog

/-- The result set a connection still has to give. -/
inductive Pending where
  | none
  | statement (stmt : MysqlStmt) (stored : Bool)
  | query (conn : Mysql)
  | stored (result : MysqlRes)
  deriving DecidableEq, Repr

structure OpenStmt where
  stmt : MysqlStmt
  query : Option Sql.Statement := none
  freed : Bool := false
  deriving DecidableEq, Repr

/-- A close of a connection, with what was still held at that time. -/
structure Closing where
  conn : Mysql
  stmts : List OpenStmt
  results : List MysqlRes
  pending : Pending
  inserted : Bool
  deriving DecidableEq, Repr

/-- The handles in use after some calls, and what went wrong with them. -/
structure Handles where
  conns : List Mysql := []
  stmts : List OpenStmt := []
  results : List MysqlRes := []
  pending : Pending := .none
  closings : List Closing := []
  /-- an INSERT has been executed -/
  inserted : Bool := false
  /-- a call took a handle that is not open -/
  misused : Bool := false
  /-- a statement was sent while a result set was unread -/
  outOfSync : Bool := false
  /-- a statement was sent while no connection was open -/
  sentLate : Bool := false
  /-- an option was not accepted -/
  optionRefused : Bool := false
  /-- closing a statement failed after its result had been freed -/
  closeRefused : Bool := false
  deriving DecidableEq, Repr

def isSelect : Sql.Statement → Bool
  | .selectOne .. => true
  | .selectExists _ => true
  | _ => false

def isInsert : Sql.Statement → Bool
  | .insert .. => true
  | _ => false

namespace Handles

def find (h : Handles) (stmt : MysqlStmt) : Option OpenStmt :=
  h.stmts.find? fun e => e.stmt = stmt

def queryOf (h : Handles) (stmt : MysqlStmt) : Option Sql.Statement :=
  (h.find stmt).bind OpenStmt.query

def update (h : Handles) (stmt : MysqlStmt) (f : OpenStmt → OpenStmt) : List OpenStmt :=
  h.stmts.modify (h.stmts.findIdx fun e => e.stmt = stmt) f

/-- Every handle a call takes is open. -/
def opens (h : Handles) (c : DbCall) : Bool :=
  c.conn?.all (fun conn => conn ∈ h.conns) && c.stmt?.all fun stmt => (h.find stmt).isSome

def connsAfter (h : Handles) : DbEvent → List Mysql
  | ⟨.mysqlInit, some conn⟩ => conn :: h.conns
  | ⟨.mysqlClose conn, _⟩ => h.conns.erase conn
  | _ => h.conns

def stmtsAfter (h : Handles) : DbEvent → List OpenStmt
  | ⟨.mysqlStmtInit _, some stmt⟩ => { stmt } :: h.stmts
  | ⟨.mysqlStmtPrepare stmt query, false⟩ => h.update stmt fun e => { e with query := some query }
  | ⟨.mysqlStmtFreeResult stmt, _⟩ => h.update stmt fun e => { e with freed := true }
  | ⟨.mysqlStmtClose stmt, _⟩ => h.stmts.eraseP fun e => e.stmt = stmt
  | _ => h.stmts

def resultsAfter (h : Handles) : DbEvent → List MysqlRes
  | ⟨.mysqlStoreResult _, some result⟩ => result :: h.results
  | ⟨.mysqlFreeResult result, _⟩ => h.results.erase result
  | _ => h.results

/-- A SELECT leaves its result set unread until it is stored and freed or its
statement is closed. -/
def pendingAfter (h : Handles) : DbEvent → Pending
  | ⟨.mysqlStmtExecute stmt, false⟩ =>
    if (h.queryOf stmt).any isSelect then .statement stmt false else h.pending
  | ⟨.mysqlStmtStoreResult stmt, false⟩ =>
    if h.pending = .statement stmt false then .statement stmt true else h.pending
  | ⟨.mysqlStmtFreeResult stmt, _⟩ =>
    if h.pending = .statement stmt true then .none else h.pending
  | ⟨.mysqlStmtClose stmt, _⟩ =>
    if h.pending = .statement stmt false ∨ h.pending = .statement stmt true then .none else h.pending
  | ⟨.mysqlRealQuery conn query, false⟩ => if isSelect query then .query conn else h.pending
  | ⟨.mysqlStoreResult conn, some result⟩ =>
    if h.pending = .query conn then .stored result else h.pending
  | ⟨.mysqlStoreResult conn, none⟩ => if h.pending = .query conn then .none else h.pending
  | ⟨.mysqlFreeResult result, _⟩ => if h.pending = .stored result then .none else h.pending
  | _ => h.pending

def closingsAfter (h : Handles) : DbEvent → List Closing
  | ⟨.mysqlClose conn, _⟩ => h.closings ++ [⟨conn, h.stmts, h.results, h.pending, h.inserted⟩]
  | _ => h.closings

def insertedAfter (h : Handles) : DbEvent → Bool
  | ⟨.mysqlStmtExecute stmt, false⟩ => h.inserted || (h.queryOf stmt).any isInsert
  | _ => h.inserted

def optionRefusedAfter (h : Handles) : DbEvent → Bool
  | ⟨.mysqlOptionsv .., failed⟩ => h.optionRefused || failed
  | _ => h.optionRefused

def closeRefusedAfter (h : Handles) : DbEvent → Bool
  | ⟨.mysqlStmtClose stmt, failed⟩ =>
    h.closeRefused || (failed && (h.find stmt).any OpenStmt.freed)
  | _ => h.closeRefused

/-- What a call and its reply do to the handles. -/
def step (h : Handles) (e : DbEvent) : Handles where
  conns := h.connsAfter e
  stmts := h.stmtsAfter e
  results := h.resultsAfter e
  pending := h.pendingAfter e
  closings := h.closingsAfter e
  inserted := h.insertedAfter e
  misused := h.misused || !h.opens e.1
  outOfSync := h.outOfSync || (e.1.sends && h.pending != .none)
  sentLate := h.sentLate || (e.1.sends && h.conns.isEmpty)
  optionRefused := h.optionRefusedAfter e
  closeRefused := h.closeRefusedAfter e

def closeConn (h : Handles) (conn : Mysql) : Handles :=
  { h with conns := h.conns.erase conn
           closings := h.closings ++ [⟨conn, h.stmts, h.results, h.pending, h.inserted⟩] }

end Handles

/-- A connection is open and nothing on it waits to be read. -/
structure Handles.Ready (h : Handles) (conn : Mysql) : Prop where
  isOpen : conn ∈ h.conns
  read : h.pending = .none

namespace Handles

attribute [simp] connsAfter stmtsAfter resultsAfter pendingAfter closingsAfter insertedAfter
  optionRefusedAfter closeRefusedAfter DbCall.conn? DbCall.stmt? DbCall.sends

/-- The handles with one more statement, its result set waiting as `p` says. -/
@[simps] def push (h : Handles) (e : OpenStmt) (p : Pending) : Handles :=
  { h with stmts := e :: h.stmts, pending := p }

variable {h : Handles} {conn : Mysql} {stmt : MysqlStmt} {e : OpenStmt} {p : Pending}

@[simp] theorem find_push : (h.push e p).find e.stmt = some e := by
  simp [find, push]

@[simp] theorem queryOf_push : (h.push e p).queryOf e.stmt = e.query := by
  simp [queryOf]

@[simp] theorem update_push {f : OpenStmt → OpenStmt} :
    (h.push e p).update e.stmt f = f e :: h.stmts := by
  simp [update, push, List.findIdx_cons]

theorem Ready.conns_isEmpty (hr : h.Ready conn) : h.conns.isEmpty = false :=
  List.isEmpty_eq_false_iff.mpr (List.ne_nil_of_mem hr.isOpen)

/-- A call that takes only the open connection, changes no field and sends no
statement. -/
theorem step_error (hc : conn ∈ h.conns) {what : Bytes} :
    h.step ⟨.mysqlError conn, what⟩ = h := by
  simp [step, opens, hc]

theorem step_errno (hc : conn ∈ h.conns) {n : Sql.Errno} : h.step ⟨.mysqlErrno conn, n⟩ = h := by
  simp [step, opens, hc]

theorem step_getCurrentTime {t : BitVec 64} : h.step ⟨.getCurrentTime, t⟩ = h := by
  simp [step, opens]

theorem step_close (hc : conn ∈ h.conns) {u : Unit} :
    h.step ⟨.mysqlClose conn, u⟩ = h.closeConn conn := by
  simp [step, opens, hc, closeConn]

theorem step_stmtInit_null (hc : conn ∈ h.conns) : h.step ⟨.mysqlStmtInit conn, none⟩ = h := by
  simp [step, opens, hc]

theorem step_stmtInit (hr : h.Ready conn) :
    h.step ⟨.mysqlStmtInit conn, some stmt⟩ = h.push { stmt } .none := by
  simp [step, opens, hr.isOpen, push, hr.read]

theorem step_prepare {query : Sql.Statement} {failed : Bool} (hr : h.Ready conn) :
    (h.push e .none).step ⟨.mysqlStmtPrepare e.stmt query, failed⟩ =
      h.push (if failed then e else { e with query := some query }) .none := by
  cases failed
  · simp [step, opens, hr.conns_isEmpty]
    rfl
  · simp [step, opens, hr.conns_isEmpty]
    rfl

theorem step_bindParam {params : List MysqlBind} {failed : Bool} :
    (h.push e p).step ⟨.mysqlStmtBindParam e.stmt params, failed⟩ = h.push e p := by
  simp [step, opens]
  rfl

theorem step_execute_failed (hr : h.Ready conn) :
    (h.push e .none).step ⟨.mysqlStmtExecute e.stmt, true⟩ = h.push e .none := by
  simp [step, opens, hr.conns_isEmpty]
  rfl

theorem step_execute {query : Sql.Statement} (hr : h.Ready conn) (hq : e.query = some query) :
    (h.push e .none).step ⟨.mysqlStmtExecute e.stmt, false⟩ =
      { h with inserted := h.inserted || isInsert query }.push e
        (if isSelect query then .statement e.stmt false else .none) := by
  simp [step, opens, hr.conns_isEmpty, hq]
  rfl

theorem step_stmtStoreResult {failed : Bool} :
    (h.push e (.statement e.stmt false)).step ⟨.mysqlStmtStoreResult e.stmt, failed⟩ =
      h.push e (.statement e.stmt !failed) := by
  cases failed
  · simp [step, opens]
    rfl
  · simp [step, opens]
    rfl

theorem step_stmtNumRows {n : Nat} :
    (h.push e p).step ⟨.mysqlStmtNumRows e.stmt, n⟩ = h.push e p := by
  simp [step, opens]
  rfl

theorem step_stmtFreeResult {u : Unit} :
    (h.push e (.statement e.stmt true)).step ⟨.mysqlStmtFreeResult e.stmt, u⟩ =
      h.push { e with freed := true } .none := by
  simp [step, opens]
  rfl

theorem step_stmtError {what : Bytes} :
    (h.push e p).step ⟨.mysqlStmtError e.stmt, what⟩ = h.push e p := by
  simp [step, opens]
  rfl

theorem step_stmtClose {b : Bool} (hp : h.pending = .none)
    (hown : p = .none ∨ ∃ b, p = .statement e.stmt b) :
    (h.push e p).step ⟨.mysqlStmtClose e.stmt, b⟩ =
      { h with closeRefused := h.closeRefused || (b && e.freed) } := by
  rcases hown with rfl | ⟨_ | _, rfl⟩ <;> simp [step, opens, hp]

end Handles

end PrizeSender
