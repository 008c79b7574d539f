import PrizeSender.HandleContract
import Mathlib.Data.List.Induction

namespace PrizeSender

open Prog

def opensConn (conn : Mysql) : DbEvent → Bool
  | ⟨.mysqlInit, some c⟩ => c = conn
  | _ => false

def closesConn (conn : Mysql) : DbEvent → Bool
  | ⟨.mysqlClose c, _⟩ => c = conn
  | _ => false

def opensStmt (stmt : MysqlStmt) : DbEvent → Bool
  | ⟨.mysqlStmtInit _, some s⟩ => s = stmt
  | _ => false

def closesStmt (stmt : MysqlStmt) : DbEvent → Bool
  | ⟨.mysqlStmtClose s, _⟩ => s = stmt
  | _ => false

/-- After these calls the handle has been returned once more than closed. -/
def ConnOpen (before : List DbEvent) (conn : Mysql) : Prop :=
  before.countP (closesConn conn) < before.countP (opensConn conn)

def StmtOpen (before : List DbEvent) (stmt : MysqlStmt) : Prop :=
  before.countP (closesStmt stmt) < before.countP (opensStmt stmt)

/-- No call takes a connection or a statement that is not open. -/
def UsesOpen (tr : List DbEvent) : Prop :=
  ∀ before e after, tr = before ++ e :: after →
    (∀ conn, e.1.conn? = some conn → ConnOpen before conn) ∧
    (∀ stmt, e.1.stmt? = some stmt → StmtOpen before stmt)

def handles (tr : List DbEvent) : Handles := tr.foldl Handles.step {}

theorem handles_concat (tr : List DbEvent) (e : DbEvent) :
    handles (tr ++ [e]) = (handles tr).step e := by
  simp [handles]

theorem usesOpen_concat {tr : List DbEvent} {e : DbEvent} :
    UsesOpen (tr ++ [e]) ↔ UsesOpen tr ∧
      (∀ conn, e.1.conn? = some conn → ConnOpen tr conn) ∧
      (∀ stmt, e.1.stmt? = some stmt → StmtOpen tr stmt) := by
  constructor
  · intro h
    refine ⟨?_, h tr e [] rfl⟩
    rintro before f after rfl
    exact h before f (after ++ [e]) (by simp)
  · rintro ⟨h, he⟩ before f after heq
    rcases List.eq_nil_or_concat after with rfl | ⟨after, g, rfl⟩
    · obtain ⟨rfl, hf⟩ := List.append_inj' heq rfl
      cases hf
      exact he
    · rw [List.concat_eq_append, ← List.cons_append, ← List.append_assoc] at heq
      obtain ⟨rfl, _⟩ := List.append_inj' heq rfl
      exact h before f after rfl

namespace Handles

variable {h : Handles} {e : DbEvent} {conn : Mysql} {stmt : MysqlStmt}

theorem count_connsAfter (conn : Mysql) (ho : ∀ c, e.1.conn? = some c → c ∈ h.conns) :
    (h.connsAfter e).count conn + (closesConn conn e).toNat =
      h.conns.count conn + (opensConn conn e).toNat := by
  unfold connsAfter
  split
  next c => by_cases hc : c = conn <;> simp [closesConn, opensConn, hc]
  next c u =>
    have hmem : c ∈ h.conns := ho c rfl
    by_cases hc : c = conn
    · subst hc
      have hpos : 0 < h.conns.count c := List.count_pos_iff.mpr hmem
      simp [closesConn, opensConn]
      omega
    · simp [closesConn, opensConn, hc, List.count_erase_of_ne (Ne.symm hc)]
  next hinit hclose =>
    have hc : closesConn conn e = false := by
      unfold closesConn
      split
      next c u => exact (hclose c u rfl).elim
      next => rfl
    have ho : opensConn conn e = false := by
      unfold opensConn
      split
      next c => exact (hinit c rfl).elim
      next => rfl
    simp [hc, ho]

def openStmts (h : Handles) : List MysqlStmt := h.stmts.map OpenStmt.stmt

theorem mem_openStmts : stmt ∈ h.openStmts ↔ (h.find stmt).isSome := by
  simp [openStmts, find]

theorem map_update {f : OpenStmt → OpenStmt} (hf : ∀ e, (f e).stmt = e.stmt) :
    (h.update stmt f).map OpenStmt.stmt = h.openStmts := by
  apply List.ext_getElem?
  intro i
  simp only [update, openStmts, List.getElem?_map, List.getElem?_modify]
  cases h.stmts[i]? with
  | none => simp
  | some e =>
    simp only [Option.map_some]
    split <;> simp [hf]

theorem count_stmtsAfter (stmt : MysqlStmt) (ho : ∀ s, e.1.stmt? = some s → s ∈ h.openStmts) :
    ((h.stmtsAfter e).map OpenStmt.stmt).count stmt + (closesStmt stmt e).toNat =
      h.openStmts.count stmt + (opensStmt stmt e).toNat := by
  unfold stmtsAfter
  split
  next c s => by_cases hs : s = stmt <;> simp [closesStmt, opensStmt, openStmts, hs]
  next s q =>
    rw [map_update (f := fun e => { e with query := some q }) fun _ => rfl]
    simp [closesStmt, opensStmt]
  next s u =>
    rw [map_update (f := fun e => { e with freed := true }) fun _ => rfl]
    simp [closesStmt, opensStmt]
  next s b =>
    have hmem : s ∈ h.openStmts := ho s rfl
    have herase : (h.stmts.eraseP fun e => e.stmt = s).map OpenStmt.stmt = h.openStmts.erase s := by
      rw [List.erase_eq_eraseP, openStmts, List.eraseP_map]
      congr 2
      funext e
      exact (decide_eq_decide.mpr eq_comm).trans (beq_eq_decide s e.stmt).symm
    rw [herase]
    by_cases hs : s = stmt
    · subst hs
      have hpos : 0 < h.openStmts.count s := List.count_pos_iff.mpr hmem
      simp [closesStmt, opensStmt]
      omega
    · simp [closesStmt, opensStmt, hs, List.count_erase_of_ne (Ne.symm hs)]
  next hinit _hprepare _hfree hclose =>
    have hc : closesStmt stmt e = false := by
      unfold closesStmt
      split
      next s b => exact (hclose s b rfl).elim
      next => rfl
    have ho : opensStmt stmt e = false := by
      unfold opensStmt
      split
      next c s => exact (hinit c s rfl).elim
      next => rfl
    simp [hc, ho, openStmts]

theorem opens_iff : h.opens e.1 = true ↔ (∀ c, e.1.conn? = some c → c ∈ h.conns) ∧
    (∀ s, e.1.stmt? = some s → s ∈ h.openStmts) := by
  simp [opens, mem_openStmts, Option.all_eq_true]

end Handles

/-- One more event keeps the balance of what is in use and what has been
closed with what has been opened. -/
theorem balance_concat {tr : List DbEvent} {e : DbEvent} {opened closed : DbEvent → Bool}
    {n n' : Nat} (he : n' + (closed e).toNat = n + (opened e).toNat)
    (h : n + tr.countP closed = tr.countP opened) :
    n' + (tr ++ [e]).countP closed = (tr ++ [e]).countP opened := by
  rw [List.countP_append, List.countP_append, List.countP_singleton, List.countP_singleton]
  cases hc : closed e <;> cases ho : opened e <;> simp [hc, ho] at he ⊢ <;> omega

theorem handles_counted {tr : List DbEvent} (hm : (handles tr).misused = false) :
    (∀ conn, (handles tr).conns.count conn + tr.countP (closesConn conn) =
      tr.countP (opensConn conn)) ∧
    (∀ stmt, (handles tr).openStmts.count stmt + tr.countP (closesStmt stmt) =
      tr.countP (opensStmt stmt)) := by
  induction tr using List.reverseRecOn with
  | nil => simp [handles, Handles.openStmts]
  | append_singleton tr e ih =>
    rw [handles_concat] at hm ⊢
    have hboth : (handles tr).misused = false ∧ (handles tr).opens e.1 = true := by
      simpa [Handles.step] using hm
    obtain ⟨hconn, hstmt⟩ := ih hboth.1
    obtain ⟨hc, hs⟩ := Handles.opens_iff.mp hboth.2
    exact ⟨fun conn => balance_concat (Handles.count_connsAfter conn hc) (hconn conn),
      fun stmt => balance_concat (Handles.count_stmtsAfter stmt hs) (hstmt stmt)⟩

theorem mem_conns_iff {tr : List DbEvent} {conn : Mysql} (hm : (handles tr).misused = false) :
    conn ∈ (handles tr).conns ↔ ConnOpen tr conn := by
  have hcount := (handles_counted hm).1 conn
  rw [← List.count_pos_iff, ConnOpen]
  omega

theorem mem_openStmts_iff {tr : List DbEvent} {stmt : MysqlStmt}
    (hm : (handles tr).misused = false) : stmt ∈ (handles tr).openStmts ↔ StmtOpen tr stmt := by
  have hcount := (handles_counted hm).2 stmt
  rw [← List.count_pos_iff, StmtOpen]
  omega

theorem misused_eq_false_iff {tr : List DbEvent} :
    (handles tr).misused = false ↔ UsesOpen tr := by
  induction tr using List.reverseRecOn with
  | nil => simp [handles, UsesOpen]
  | append_singleton tr e ih =>
    rw [handles_concat, usesOpen_concat, ← ih]
    have hstep : ((handles tr).step e).misused = false ↔
        (handles tr).misused = false ∧ (handles tr).opens e.1 = true := by
      simp [Handles.step]
    rw [hstep, Handles.opens_iff]
    apply and_congr_right
    intro hm
    simp only [mem_conns_iff hm, mem_openStmts_iff hm]

/-- A trace that releases every handle once, uses none that is not open, and
throws after a failure has closed the connection: a close that comes before an
INSERT has been executed is a failure's. -/
structure Orderly (tr : List DbEvent) (r : Except Bytes Unit) : Prop where
  connClosed : ∀ conn, tr.countP (closesConn conn) = tr.countP (opensConn conn)
  stmtClosed : ∀ stmt, tr.countP (closesStmt stmt) = tr.countP (opensStmt stmt)
  usesOpen : UsesOpen tr
  silent : (handles tr).sentLate = false
  throws : (∃ c ∈ (handles tr).closings, c.inserted = false) → ∃ e, r = .error e

/-- The option was accepted, and so was every close of a statement whose
result had been freed. -/
def Accepted (h : Handles) : Prop := h.optionRefused = false ∧ h.closeRefused = false

/-- The state of the automaton at the end of an orderly run. -/
structure Tidy (r : Except Bytes Unit) (h : Handles) : Prop where
  conns : h.conns = []
  stmts : h.stmts = []
  misused : h.misused = false
  silent : h.sentLate = false
  throws : (∃ c ∈ h.closings, c.inserted = false) → ∃ e, r = .error e

theorem orderly_iff_tidy {tr : List DbEvent} {r : Except Bytes Unit}
    (h : Accepted (handles tr) → Tidy r (handles tr))
    (hbad : ¬ Accepted (handles tr) → (handles tr).misused = true) :
    Orderly tr r ↔ Accepted (handles tr) := by
  constructor
  · intro ho
    by_contra hn
    have := misused_eq_false_iff.mpr ho.usesOpen
    simp [hbad hn] at this
  · intro ha
    obtain ⟨hconns, hstmts, hm, hsilent, hthrows⟩ := h ha
    obtain ⟨hc, hs⟩ := handles_counted hm
    refine ⟨fun conn => ?_, fun stmt => ?_, misused_eq_false_iff.mp hm, hsilent, hthrows⟩
    · simpa [hconns] using hc conn
    · simpa [Handles.openStmts, hstmts] using hs stmt

theorem step_keeps_misused {h : Handles} {e : DbEvent} (hm : h.misused = true) :
    (h.step e).misused = true := by
  simp [Handles.step, hm]

theorem step_keeps_optionRefused {h : Handles} {e : DbEvent} (ho : h.optionRefused = true) :
    (h.step e).optionRefused = true := by
  simp only [Handles.step, Handles.optionRefusedAfter]
  split <;> simp [ho]

/-- How the automaton may find a run of `processSendPrize`. -/
def SendExit (r : Except Bytes Unit) (h : Handles) : Prop :=
  (Accepted h → Tidy r h) ∧ (¬ Accepted h → h.misused = true)

theorem sendExit_of_misused {r : Except Bytes Unit} {h : Handles} (hm : h.misused = true)
    (ho : h.optionRefused = true) : SendExit r h :=
  ⟨fun ha => by simp [Accepted, ho] at ha, fun _ => hm⟩

theorem sendExit_of_throw {conn : Mysql} {e : Bytes} :
    SendExit (.error e) (Handles.closeConn { conns := [conn] } conn) :=
  ⟨fun _ => ⟨by simp [Handles.closeConn], rfl, rfl, rfl, fun _ => ⟨e, rfl⟩⟩,
    fun hn => absurd ⟨rfl, rfl⟩ hn⟩

theorem processSendPrize_handles (cp : CodePage UInt16 UInt8) (dbConfig : CAppConfigDb)
    (username : WString) (world charguid item count : CInt) :
    (processSendPrize cp dbConfig username world charguid item count).run.wp
      (monitor Handles.step) .alone (fun r h _ => SendExit r h) {} () := by
  unfold processSendPrize
  apply wp_lift_monitor
  rintro (_ | conn)
  · apply wp_throw
    rintro _ _
    refine ⟨fun _ => ⟨rfl, rfl, rfl, rfl, fun _ => ⟨_, rfl⟩⟩, fun hn => absurd ⟨rfl, rfl⟩ hn⟩
  apply wp_lift_monitor
  rintro (_ | _)
  swap
  · apply wp_lift_monitor
    intro what
    apply wp_lift_monitor
    intro _
    apply wp_lift_monitor
    intro connected
    refine wp_mono (wp_monitor_keeps (I := fun h => h.misused = true ∧ h.optionRefused = true)
      (fun h e hi => ⟨step_keeps_misused hi.1, step_keeps_optionRefused hi.2⟩) _ ?_)
      fun r h _ hi => sendExit_of_misused hi.1 hi.2
    simp [Handles.step, Handles.opens]
  have hopen : Handles.step (Handles.step {} ⟨.mysqlInit, some conn⟩)
      ⟨.mysqlOptionsv conn false, false⟩ = { conns := [conn] } := by
    simp [Handles.step, Handles.opens]
  rw [hopen]
  have hr : Handles.Ready { conns := [conn] } conn := ⟨by simp, rfl⟩
  have hconnect : ∀ host user password dbName port r, Handles.step { conns := [conn] }
      ⟨.mysqlRealConnect conn host user password dbName port, r⟩ = { conns := [conn] } := by
    intro host user password dbName port r
    simp [Handles.step, Handles.opens]
  apply wp_guard_monitor
  · intro r _
    rw [hconnect]
    exact throwConnError_handles hr.isOpen fun _ => ⟨_, rfl, sendExit_of_throw⟩
  intro r _
  rw [hconnect]
  apply wp_seq
  apply wp_mono (checkAccountExists_handles hr)
  rintro (e | _) h _ hexit
  · intro _ _
    rcases hexit with rfl | ⟨m, rfl, hm⟩
    · exact sendExit_of_throw
    · have hm : m = true := hm rfl
      exact ⟨fun ha => by simp [Accepted] at ha, fun _ => hm⟩
  obtain rfl : h = { conns := [conn] } := hexit
  apply wp_seq
  apply wp_mono (checkPrizeTable_handles hr)
  rintro (e | _) h _ rfl
  · exact fun _ _ => sendExit_of_throw
  apply wp_seq
  apply wp_mono (insertPrize_handles hr)
  rintro (e | _) h _ rfl
  · exact fun _ _ => sendExit_of_throw
  apply wp_lift_last
  intro u
  rw [Handles.step_close (by simp)]
  refine ⟨fun _ => ⟨by simp [Handles.closeConn], rfl, rfl, rfl, ?_⟩, fun hn => absurd ⟨rfl, rfl⟩ hn⟩
  simp [Handles.closeConn]

theorem processSendPrize_orderly_iff (cp : CodePage UInt16 UInt8) (dbConfig : CAppConfigDb)
    (username : WString) (world charguid item count : CInt) (o : Nat → (c : DbCall) → c.Reply) :
    Orderly ((processSendPrize cp dbConfig username world charguid item count).run.trace o).1
        ((processSendPrize cp dbConfig username world charguid item count).run.trace o).2 ↔
      Accepted (handles
        ((processSendPrize cp dbConfig username world charguid item count).run.trace o).1) := by
  have h := trace_of_wp (Q := fun r h _ => SendExit r h)
    (processSendPrize_handles cp dbConfig username world charguid item count) o
  exact orderly_iff_tidy h.1 h.2

/-- Every call succeeds but for the option. -/
def refusedOption : (c : DbCall) → c.Reply
  | .mysqlInit => some ⟨1⟩
  | .mysqlOptionsv .. => true
  | .mysqlRealConnect conn .. => some conn
  | .mysqlError _ => []
  | .mysqlErrno _ => 0
  | .mysqlClose _ => ()
  | .mysqlStmtInit _ => some ⟨2⟩
  | .mysqlStmtPrepare .. => false
  | .mysqlStmtBindParam .. => false
  | .mysqlStmtExecute _ => false
  | .mysqlStmtStoreResult _ => false
  | .mysqlStmtNumRows _ => 1
  | .mysqlStmtFreeResult _ => ()
  | .mysqlStmtError _ => []
  | .mysqlStmtClose _ => false
  | .mysqlRealQuery .. => false
  | .mysqlStoreResult _ => some ⟨3⟩
  | .mysqlFreeResult _ => ()
  | .getCurrentTime => 0

/-- The connection is closed after the refused option and again at the end. -/
theorem processSendPrize_closes_twice :
    ¬ Orderly ((processSendPrize asciiPage {} (wide "admin") 0 1 20101001 1).run.trace
        fun _ => refusedOption).1
      ((processSendPrize asciiPage {} (wide "admin") 0 1 20101001 1).run.trace
        fun _ => refusedOption).2 := by
  intro h
  have hclosed := h.connClosed ⟨1⟩
  revert hclosed
  decide

end PrizeSender
