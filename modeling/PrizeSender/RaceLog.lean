import PrizeSender.SendEffect

namespace PrizeSender

open Prog Sql

/-- One instance of the program: its settings, its form and its clock. -/
structure Sender where
  dbConfig : CAppConfigDb
  prize : CAppConfigPrize
  clock : BitVec 64

/-- Every call ends with the server's own answer; only the texts are left open. -/
def Sender.answered (p : Sender) (text : Bytes) : Choice := { text, clock := p.clock }

theorem answered_not_faults (p : Sender) : ¬ Faults p.answered := by
  rintro ⟨text, h⟩
  cases h

/-- A probe that has found no prize table. -/
def LogEntry.misses {κ : Type} (e : LogEntry κ) : Bool :=
  e.stmt = checkTableQuery ∧ e.answer = .error erNoSuchTable

def LogEntry.creates {κ : Type} (e : LogEntry κ) : Bool := e.answer.creates "account_prize"

/-- The probes that reach the server before any CREATE TABLE, in a log that is
newest first. -/
def earlyProbes {κ : Type} : List (LogEntry κ) → Nat
  | [] => 0
  | e :: log => earlyProbes log +
      if e.stmt = checkTableQuery ∧ ∀ e' ∈ log, e'.stmt ≠ createTableSql then 1 else 0

section

variable {κ ι : Type} {sv : Sql.Server} {g : ι → Choice} {i : κ} {db dbEnd : Database}
variable {log es : List (LogEntry κ)} {account : Bytes} {world charguid item count : CInt}
variable {r : Except Bytes Unit} {e : LogEntry κ}

def Statement.OfSend (q : Sql.Statement) : Prop :=
  q = selectAccount ∨ q = checkTableQuery ∨ q = createTableSql ∨ q = insertQuery

theorem SendLog.stmt (h : SendLog g i account world charguid item count es r) :
    ∀ e ∈ es, Statement.OfSend e.stmt := by
  intro e he
  cases h with
  | unsent => cases he
  | account haccount => exact Or.inl (haccount.stmt e he)
  | table haccount htable =>
    rcases List.mem_append.mp he with he | he
    · rcases htable.stmt e he with hs | hs
      · exact Or.inr (Or.inl hs)
      · exact Or.inr (Or.inr (Or.inl hs))
    · exact Or.inl (haccount.stmt e he)
  | prize haccount htable hprize =>
    rcases List.mem_append.mp he with he | he
    · exact Or.inr (Or.inr (Or.inr (hprize.stmt e he)))
    · rcases List.mem_append.mp he with he | he
      · rcases htable.stmt e he with hs | hs
        · exact Or.inr (Or.inl hs)
        · exact Or.inr (Or.inr (Or.inl hs))
      · exact Or.inl (haccount.stmt e he)

theorem respond_probe {params : List Value} :
    sv.respond db checkTableQuery params =
      if (db "account_prize").isSome then .rows 1 else .error erNoSuchTable := by
  unfold Server.respond
  cases h : db "account_prize" <;> simp [checkTableQuery, Statement.refused, h]

theorem respond_create {params : List Value} :
    sv.respond db createTableSql params =
      if (db "account_prize").isSome then .error erTableExistsError
      else .created "account_prize" prizeColumns := by
  unfold Server.respond
  cases h : db "account_prize" <;> simp [createTableSql, Statement.refused, h]

/-- Only the CREATE TABLE of `checkPrizeTable` creates the prize table. -/
theorem creates_iff (hst : Statement.OfSend e.stmt)
    (ha : e.answer = sv.respond db e.stmt e.params) :
    e.creates = true ↔ e.stmt = createTableSql ∧ db "account_prize" = none := by
  unfold LogEntry.creates
  constructor
  · intro hc
    cases hans : e.answer with
    | rows n => simp [hans, Answer.creates] at hc
    | error n => simp [hans, Answer.creates] at hc
    | inserted t row => simp [hans, Answer.creates] at hc
    | created t columns =>
      obtain ⟨hq, hnone⟩ := respond_created (ha.symm.trans hans)
      have ht : t = "account_prize" := by simpa [hans, Answer.creates] using hc
      subst ht
      refine ⟨?_, hnone⟩
      rcases hst with h | h | h | h
      · cases h.symm.trans hq
      · cases h.symm.trans hq
      · exact h
      · cases h.symm.trans hq
  · rintro ⟨hq, hnone⟩
    rw [ha, hq, respond_create, hnone]
    rfl

theorem misses_iff (ha : e.answer = sv.respond db e.stmt e.params) :
    e.misses = true ↔ e.stmt = checkTableQuery ∧ db "account_prize" = none := by
  simp only [LogEntry.misses, decide_eq_true_eq]
  refine and_congr_right fun hq => ?_
  rw [ha, hq, respond_probe]
  cases db "account_prize" with
  | none => simp
  | some tb => simp

theorem misses_eq_false (hst : e.stmt ≠ checkTableQuery) : e.misses = false := by
  simp [LogEntry.misses, hst]

theorem isSome_replays {table : String} (h : Replays sv db log dbEnd) (hs : (db table).isSome) :
    (dbEnd table).isSome := by
  have hc := creates_replays table h
  cases hd : dbEnd table with
  | some tb => rfl
  | none =>
    rw [hd, hs] at hc
    simp at hc
    omega

/-- Without a table at the start there is one as soon as a CREATE TABLE has been
sent. -/
theorem isSome_iff_createSent (h : Replays sv db log dbEnd)
    (hst : ∀ e ∈ log, Statement.OfSend e.stmt) (hnone : db "account_prize" = none) :
    (dbEnd "account_prize").isSome ↔ ∃ e ∈ log, e.stmt = createTableSql := by
  induction h with
  | nil => simp [hnone]
  | @cons log dbEnd e h ha ih =>
    have ih := ih fun e he => hst e (List.mem_cons_of_mem _ he)
    rw [isSome_apply_iff ha]
    by_cases hq : e.stmt = createTableSql
    · have hmade : (dbEnd "account_prize").isSome ∨ e.answer.creates "account_prize" = true := by
        cases hd : dbEnd "account_prize" with
        | none => exact Or.inr ((creates_iff (hst e List.mem_cons_self) ha).mpr ⟨hq, hd⟩)
        | some tb => exact Or.inl rfl
      simp [hmade, hq]
    · have hkept : e.answer.creates "account_prize" ≠ true := fun hc =>
        hq ((creates_iff (hst e List.mem_cons_self) ha).mp hc).1
      simp [hkept, ih, hq]

/-- The probes that find no table are those before any CREATE TABLE. -/
theorem misses_eq_earlyProbes (h : Replays sv db log dbEnd)
    (hst : ∀ e ∈ log, Statement.OfSend e.stmt) (hnone : db "account_prize" = none) :
    log.countP LogEntry.misses = earlyProbes log := by
  induction h with
  | nil => rfl
  | @cons log dbEnd e h ha ih =>
    have hst' : ∀ e ∈ log, Statement.OfSend e.stmt := fun e he => hst e (List.mem_cons_of_mem _ he)
    have hmade := isSome_iff_createSent h hst' hnone
    have habsent : dbEnd "account_prize" = none ↔ ∀ e' ∈ log, e'.stmt ≠ createTableSql := by
      rw [← Option.not_isSome_iff_eq_none, hmade]
      simp
    rw [List.countP_cons, ih hst', earlyProbes]
    simp only [misses_iff ha, habsent]

/-- Without faults a table check that succeeds leaves the prize table. -/
theorem TableLog.leaves_table (sv : Sql.Server) (h : TableLog g i es (.ok ())) (hf : ¬ Faults g) :
    ∃ x ∈ es, ∀ d, x.answer = sv.respond d x.stmt x.params →
      (x.answer.apply d "account_prize").isSome := by
  cases h with
  | @found a n hok =>
    refine ⟨_, List.mem_cons_self, fun d hd => (isSome_apply_iff hd).mpr (Or.inl ?_)⟩
    have hd : a = sv.respond d checkTableQuery [] := hd
    rw [respond_probe] at hd
    split at hd
    next hs => exact hs
    next => rw [hd] at hok; cases hok
  | @made b n hok =>
    refine ⟨_, List.mem_cons_self, fun d hd => (isSome_apply_iff hd).mpr (Or.inr ?_)⟩
    have hd : b = sv.respond d createTableSql [] := hd
    rw [respond_create] at hd
    split at hd
    next => rw [hd] at hok; cases hok
    next => rw [show (sent i createTableSql [] b).answer = b from rfl, hd]; rfl
  | faulted hf' => exact absurd hf' hf

/-! The account check, seen from the account table. -/

theorem OfSend.keeps_account {q : Sql.Statement} (h : Statement.OfSend q) :
    q.table? ≠ some "account" := by
  rcases h with rfl | rfl | rfl | rfl <;> decide

theorem respond_account (hacc : AccountExists sv db account) :
    selectAccount.refused db = none ∧
      sv.respond db selectAccount [.text (cString account)] = .rows 1 := by
  obtain ⟨tb, row, name, htb, hcolumn, hmem, hrow, hsame⟩ := hacc
  have hrefused : selectAccount.refused db = none := by
    simp [selectAccount, Statement.refused, htb, hcolumn]
  have hmatch : row ∈ sv.matching tb "name" (.text (cString account)) := by
    apply List.mem_filter.mpr
    exact ⟨hmem, by simp [hrow, hsame]⟩
  have hpos : 0 < (sv.matching tb "name" (.text (cString account))).length :=
    List.length_pos_of_mem hmatch
  refine ⟨hrefused, ?_⟩
  unfold Server.respond
  rw [hrefused]
  simp only [selectAccount, htb, Answer.rows.injEq]
  omega

/-- Without faults the check of an account that exists succeeds. -/
theorem AccountLog.ok_of_exists (h : AccountLog g i account es r) (hf : ¬ Faults g)
    (hacc : AccountExists sv db account) (hans : ∀ e ∈ es, ∃ d, d "account" = db "account" ∧
      e.answer = sv.respond d e.stmt e.params) : r = .ok () := by
  have hready : ∀ d, d "account" = db "account" → selectAccount.refused d = none ∧
      sv.respond d selectAccount [.text (cString account)] = .rows 1 := by
    intro d hd
    apply respond_account
    simpa only [AccountExists, hd] using hacc
  cases h with
  | found hn => rfl
  | @missing a e ha =>
    obtain ⟨d, hd, h⟩ := hans _ List.mem_cons_self
    have ha' : a = .rows 1 := h.trans (hready d hd).2
    rw [ha'] at ha
    cases ha
  | @unprepared dbEnd errno e hdb =>
    obtain ⟨d, hd, h⟩ := hans _ List.mem_cons_self
    have hwrong : sv.respond d selectAccount [] = .error erWrongArguments := by
      unfold Server.respond
      rw [(hready d hd).1]
      dsimp only [selectAccount]
      cases d "account" <;> rfl
    have herrno : Answer.error errno = .error erWrongArguments := h.trans hwrong
    exact absurd (Answer.error.inj herrno) (refused_ne_wrongArguments hdb)
  | @refused errno e =>
    obtain ⟨d, hd, h⟩ := hans _ List.mem_cons_self
    have ha' : Answer.error errno = .rows 1 := h.trans (hready d hd).2
    cases ha'
  | faulted hf' => exact absurd hf' hf

end

end PrizeSender
