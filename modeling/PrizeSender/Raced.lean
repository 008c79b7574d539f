import PrizeSender.RaceLog
import Mathlib.Algebra.BigOperators.Group.Finset.Piecewise
import Mathlib.Algebra.Order.BigOperators.Group.Finset

namespace PrizeSender

open Prog Sql

/-- Counting in a log is counting in the part of each sender. -/
theorem countP_eq_sum {κ β : Type} [Fintype κ] [DecidableEq κ] (sender : β → κ) (q : β → Bool)
    (l : List β) : l.countP q = ∑ i, (l.filter fun b => sender b = i).countP q := by
  induction l with
  | nil => simp
  | cons b l ih =>
    have hstep : ∀ i, ((b :: l).filter fun b => sender b = i).countP q =
        (l.filter fun b => sender b = i).countP q +
          if sender b = i then (if q b then 1 else 0) else 0 := by
      intro i
      by_cases hi : sender b = i <;> simp [hi, List.countP_cons]
    rw [List.countP_cons, ih, Finset.sum_congr rfl fun i _ => hstep i, Finset.sum_add_distrib,
      Finset.sum_ite_eq]
    simp

variable {κ : Type} [DecidableEq κ] {sv : Sql.Server} {cp : CodePage UInt16 UInt8}
variable {senders : κ → Sender} {db dbEnd : Database} {log own : List (LogEntry κ)}
variable {result : κ → Except Bytes Unit} {p : Sender} {i : κ} {r : Except Bytes Unit}

def ownLog (i : κ) (log : List (LogEntry κ)) : List (LogEntry κ) :=
  log.filter fun e => e.sender = i

/-- What is left when senders have all ended, the calls of sender `i` having
ended as `g i` says. -/
structure Ended {ι : Type} (sv : Sql.Server) (cp : CodePage UInt16 UInt8) (g : κ → ι → Choice)
    (senders : κ → Sender) (db : Database) (log : List (LogEntry κ)) (dbEnd : Database)
    (result : κ → Except Bytes Unit) : Prop where
  replays : Replays sv db log dbEnd
  sends : ∀ i, SendLog (g i) i (cp.encode (senders i).prize.mUsername)
    (senders i).prize.mWorld (senders i).prize.mCharguid (senders i).prize.mItem
    (senders i).prize.mCount (ownLog i log) (result i)

theorem Ended.ofSend {ι : Type} {g : κ → ι → Choice}
    (h : Ended sv cp g senders db log dbEnd result) : ∀ e ∈ log, Statement.OfSend e.stmt := by
  intro e he
  exact (h.sends e.sender).stmt e (List.mem_filter.mpr ⟨he, by simp⟩)

/-- What is left when senders have all ended whose calls were all answered. -/
structure Raced (sv : Sql.Server) (cp : CodePage UInt16 UInt8) (senders : κ → Sender)
    (db : Database) (log : List (LogEntry κ)) (dbEnd : Database) (result : κ → Except Bytes Unit) :
    Prop where
  replays : Replays sv db log dbEnd
  sends : ∀ i, SendLog (senders i).answered i (cp.encode (senders i).prize.mUsername)
    (senders i).prize.mWorld (senders i).prize.mCharguid (senders i).prize.mItem
    (senders i).prize.mCount (ownLog i log) (result i)
  accounts : ∀ i, AccountExists sv db (cp.encode (senders i).prize.mUsername)

theorem Raced.ended (h : Raced sv cp senders db log dbEnd result) :
    Ended sv cp (fun i => (senders i).answered) senders db log dbEnd result :=
  ⟨h.replays, h.sends⟩

theorem Raced.ofSend (h : Raced sv cp senders db log dbEnd result) :
    ∀ e ∈ log, Statement.OfSend e.stmt :=
  h.ended.ofSend

theorem Raced.answered (h : Raced sv cp senders db log dbEnd result) {e : LogEntry κ}
    (he : e ∈ ownLog i log) :
    ∃ d, d "account" = db "account" ∧ e.answer = sv.respond d e.stmt e.params := by
  obtain ⟨after, before, hlog⟩ := List.mem_iff_append.mp (List.mem_of_mem_filter he)
  have hrep := h.replays
  rw [hlog] at hrep
  obtain ⟨d, hd, ha, _⟩ := replays_around hrep
  refine ⟨d, replays_frame_stmt hd ?_, ha⟩
  intro e' he'
  apply OfSend.keeps_account (h.ofSend e' _)
  rw [hlog]
  simp [he']

/-- The sender has passed the account and the table check. -/
def PastTable (cp : CodePage UInt16 UInt8) (p : Sender) (i : κ) (own : List (LogEntry κ))
    (r : Except Bytes Unit) : Prop :=
  ∃ es es' es'', own = es'' ++ (es' ++ es) ∧
    AccountLog p.answered i (cp.encode p.prize.mUsername) es (.ok ()) ∧
    TableLog p.answered i es' (.ok ()) ∧
    PrizeLog p.answered i (cp.encode p.prize.mUsername) p.prize.mWorld p.prize.mCharguid
      p.prize.mItem p.prize.mCount es'' r

/-- The sender has found no table, and then could not create it. -/
def Blocked (cp : CodePage UInt16 UInt8) (p : Sender) (i : κ) (own : List (LogEntry κ))
    (r : Except Bytes Unit) : Prop :=
  ∃ es errno what, r = .error what ∧
    AccountLog p.answered i (cp.encode p.prize.mUsername) es (.ok ()) ∧
    own = sent i createTableSql [] (.error errno) ::
      sent i checkTableQuery [] (.error erNoSuchTable) :: es

theorem Raced.pastTable_or_blocked (h : Raced sv cp senders db log dbEnd result) (i : κ) :
    PastTable cp (senders i) i (ownLog i log) (result i) ∨
      Blocked cp (senders i) i (ownLog i log) (result i) := by
  have hf := answered_not_faults (senders i)
  have hans : ∀ e ∈ ownLog i log, ∃ d, d "account" = db "account" ∧
      e.answer = sv.respond d e.stmt e.params := fun e he => h.answered he
  have hsend := h.sends i
  generalize ownLog i log = own at hsend hans
  generalize result i = r at hsend
  cases hsend with
  | unsent hf' => exact absurd hf' hf
  | account haccount => cases haccount.ok_of_exists hf (h.accounts i) hans
  | @table es es' what haccount htable =>
    cases htable with
    | @unmade errno _ => exact Or.inr ⟨es, errno, what, rfl, haccount, rfl⟩
    | @refused errno _ hn =>
      obtain ⟨d, _, ha⟩ := hans _ List.mem_cons_self
      have ha' : Answer.error errno = sv.respond d checkTableQuery [] := ha
      rw [respond_probe] at ha'
      split at ha'
      next => cases ha'
      next => exact absurd (Answer.error.inj ha') hn
    | faulted hf' => exact absurd hf' hf
  | prize haccount htable hprize => exact Or.inl ⟨_, _, _, rfl, haccount, htable, hprize⟩

theorem Raced.notCreates (h : Raced sv cp senders db log dbEnd result) {e : LogEntry κ}
    (he : e ∈ log) (hst : e.stmt ≠ createTableSql) : e.creates = false := by
  by_contra hc
  obtain ⟨d, ha⟩ := replays_mem h.replays he
  exact hst ((creates_iff (h.ofSend e he) ha).mp (by simpa using hc)).1

theorem Raced.countP_eq_zero (h : Raced sv cp senders db log dbEnd result)
    (es : List (LogEntry κ)) (hes : ∀ e ∈ es, e ∈ log)
    (hst : ∀ e ∈ es, e.stmt ≠ checkTableQuery ∧ e.stmt ≠ createTableSql) :
    es.countP LogEntry.misses = 0 ∧ es.countP LogEntry.creates = 0 := by
  constructor
  · exact List.countP_eq_zero.mpr fun e he => by simp [misses_eq_false (hst e he).1]
  · exact List.countP_eq_zero.mpr fun e he => by simp [h.notCreates (hes e he) (hst e he).2]

/-- A sender that has passed the table check has created the table exactly when
it has missed it. -/
theorem Raced.pastTable_counts (h : Raced sv cp senders db log dbEnd result)
    (hpast : PastTable cp (senders i) i (ownLog i log) r) :
    (ownLog i log).countP LogEntry.misses = (ownLog i log).countP LogEntry.creates := by
  obtain ⟨es, es', es'', hown, haccount, htable, hprize⟩ := hpast
  have hmem : ∀ e ∈ ownLog i log, e ∈ log := fun e he => List.mem_of_mem_filter he
  rw [hown] at hmem ⊢
  have h₁ := h.countP_eq_zero es (fun e he => hmem e (by simp [he])) fun e he => by
    simp [haccount.stmt e he, selectAccount, checkTableQuery, createTableSql]
  have h₃ := h.countP_eq_zero es'' (fun e he => hmem e (by simp [he])) fun e he => by
    simp [hprize.stmt e he, insertQuery, checkTableQuery, createTableSql]
  have h₂ : es'.countP LogEntry.misses = es'.countP LogEntry.creates := by
    cases htable with
    | @found a n ha =>
      have hmiss : (sent i checkTableQuery [] a).misses = false := by
        cases a <;> simp [LogEntry.misses, sent]
        cases ha
      have hcreate := h.notCreates (hmem (sent i checkTableQuery [] a) (by simp))
        (by simp [sent, checkTableQuery, createTableSql])
      simp [hmiss, hcreate]
    | @made b n hb =>
      have hprobe := h.notCreates (hmem (sent i checkTableQuery [] (.error erNoSuchTable))
        (by simp)) (by simp [sent, checkTableQuery, createTableSql])
      obtain ⟨d, ha⟩ := replays_mem h.replays (hmem (sent i createTableSql [] b) (by simp))
      have ha' : b = sv.respond d createTableSql [] := ha
      have hcreate : (sent i createTableSql [] b).creates = true := by
        rw [respond_create] at ha'
        split at ha'
        next => rw [ha'] at hb; cases hb
        next => rw [ha']; rfl
      have hmiss : (sent i checkTableQuery [] (.error erNoSuchTable)).misses = true := by
        simp [LogEntry.misses, sent]
      have hother : (sent i createTableSql [] b).misses = false :=
        misses_eq_false (by simp [sent, checkTableQuery, createTableSql])
      simp [hprobe, hcreate, hmiss, hother]
    | faulted hf => exact absurd hf (answered_not_faults _)
  simp only [List.countP_append, h₁, h₂, h₃]

theorem Raced.blocked_counts (h : Raced sv cp senders db log dbEnd result)
    (hblocked : Blocked cp (senders i) i (ownLog i log) r) :
    (ownLog i log).countP LogEntry.misses = 1 ∧ (ownLog i log).countP LogEntry.creates = 0 ∧
      db "account_prize" = none ∧ (dbEnd "account_prize").isSome := by
  obtain ⟨es, errno, what, _, haccount, hown⟩ := hblocked
  have hmem : ∀ e ∈ ownLog i log, e ∈ log := fun e he => List.mem_of_mem_filter he
  rw [hown] at hmem ⊢
  have h₁ := h.countP_eq_zero es (fun e he => hmem e (by simp [he])) fun e he => by
    simp [haccount.stmt e he, selectAccount, checkTableQuery, createTableSql]
  have hprobe : (sent i checkTableQuery [] (.error erNoSuchTable)).misses = true := by
    simp [LogEntry.misses, sent]
  have hcreate : (sent i createTableSql [] (.error errno)).misses = false :=
    misses_eq_false (by simp [sent, checkTableQuery, createTableSql])
  refine ⟨?_, ?_, ?_, ?_⟩
  · simp [hprobe, hcreate, h₁.1]
  · simp only [List.countP_cons, h₁.2]
    rfl
  · obtain ⟨after, before, hlog⟩ := List.mem_iff_append.mp
      (hmem (sent i checkTableQuery [] (.error erNoSuchTable)) (by simp))
    have hrep := h.replays
    rw [hlog] at hrep
    obtain ⟨d, hd, ha, _⟩ := replays_around hrep
    cases hdb : db "account_prize" with
    | none => rfl
    | some tb =>
      have hpresent := isSome_replays hd (by rw [hdb]; rfl)
      rw [((misses_iff ha).mp hprobe).2] at hpresent
      cases hpresent
  · obtain ⟨after, before, hlog⟩ := List.mem_iff_append.mp
      (hmem (sent i createTableSql [] (.error errno)) (by simp))
    have hrep := h.replays
    rw [hlog] at hrep
    obtain ⟨d, _, ha, hafter⟩ := replays_around hrep
    have ha' : Answer.error errno = sv.respond d createTableSql [] := ha
    rw [respond_create] at ha'
    split at ha'
    next hd => exact isSome_replays hafter hd
    next => cases ha'

theorem countP_ownLog [Fintype κ] (q : LogEntry κ → Bool) :
    log.countP q = ∑ i, (ownLog i log).countP q :=
  countP_eq_sum _ _ _

/-- Where a sender is blocked, another one has missed the table too: the one
that has made it. -/
theorem Raced.blocked_misses [Fintype κ] (h : Raced sv cp senders db log dbEnd result)
    (hi : Blocked cp (senders i) i (ownLog i log) (result i)) :
    1 < log.countP LogEntry.misses := by
  obtain ⟨hmiss, hcreate, hdb, hdb'⟩ := h.blocked_counts hi
  by_contra hone
  rw [countP_ownLog] at hone
  have hrest : ∑ j ∈ Finset.univ.erase i, (ownLog j log).countP LogEntry.misses = 0 := by
    have := Finset.add_sum_erase Finset.univ
      (fun j => (ownLog j log).countP LogEntry.misses) (Finset.mem_univ i)
    omega
  have hnone : log.countP LogEntry.creates = 0 := by
    rw [countP_ownLog]
    apply Finset.sum_eq_zero
    intro j _
    by_cases hj : j = i
    · rwa [hj]
    · have hzero := Finset.sum_eq_zero_iff.mp hrest j (by simp [hj])
      rcases h.pastTable_or_blocked j with hp | hb
      · rw [← h.pastTable_counts hp, hzero]
      · have := (h.blocked_counts hb).1
        omega
  have htable := creates_replays "account_prize" h.replays
  change (dbEnd "account_prize").isSome.toNat = (db "account_prize").isSome.toNat +
    log.countP LogEntry.creates at htable
  rw [hnone, hdb, hdb'] at htable
  cases htable

/-- All senders pass the table check if and only if the table was there, or at
most one of them has looked for it before it was made. -/
theorem Raced.allPast_iff [Fintype κ] (h : Raced sv cp senders db log dbEnd result) :
    (∀ i, PastTable cp (senders i) i (ownLog i log) (result i)) ↔
      ((db "account_prize").isSome ∨ earlyProbes log ≤ 1) := by
  constructor
  · intro hpast
    cases hdb : db "account_prize" with
    | some tb => exact Or.inl rfl
    | none =>
      right
      rw [← misses_eq_earlyProbes h.replays h.ofSend hdb, countP_ownLog,
        Finset.sum_congr rfl fun i _ => h.pastTable_counts (hpast i), ← countP_ownLog]
      have htable := creates_replays "account_prize" h.replays
      rw [hdb] at htable
      change (dbEnd "account_prize").isSome.toNat = 0 + log.countP LogEntry.creates at htable
      have := Bool.toNat_le (dbEnd "account_prize").isSome
      simp at htable
      omega
  · intro hcond i
    rcases h.pastTable_or_blocked i with hi | hi
    · exact hi
    · exfalso
      obtain ⟨_, _, hdb, _⟩ := h.blocked_counts hi
      have hmany := h.blocked_misses hi
      rw [misses_eq_earlyProbes h.replays h.ofSend hdb] at hmany
      rcases hcond with hs | hle
      · simp [hdb] at hs
      · omega

/-! The INSERT. -/

/-- The database with a prize table, the one there is or the one that is made. -/
def readyDb (db : Database) : Database :=
  Function.update db "account_prize" (some (prizeTable db))

def Sender.values (cp : CodePage UInt16 UInt8) (p : Sender) : List Value :=
  (insertParams (cp.encode p.prize.mUsername) p.prize.mWorld p.prize.mCharguid p.prize.mItem
    p.prize.mCount p.clock).map MysqlBind.value

/-- The prize table takes the sender's prize. -/
def Takes (sv : Sql.Server) (cp : CodePage UInt16 UInt8) (db : Database) (p : Sender) : Prop :=
  ∃ row, sv.respond (readyDb db) insertQuery (p.values cp) = .inserted "account_prize" row

omit [DecidableEq κ] in
/-- While prizes are sent the prize table keeps the columns of the start. -/
theorem columns_ofSend (h : Replays sv db log dbEnd) (hst : ∀ e ∈ log, Statement.OfSend e.stmt)
    {tb : Table} (htb : dbEnd "account_prize" = some tb) :
    tb.columns = (prizeTable db).columns := by
  rcases columns_replays h htb with ⟨tb₀, h₀, hcol⟩ | ⟨h₀, e, he, hmade⟩
  · simp [prizeTable, h₀, hcol]
  · rcases hst e he with h' | h' | h' | h'
    · cases h'.symm.trans hmade
    · cases h'.symm.trans hmade
    · have hcol := h'.symm.trans hmade
      simp only [createTableSql, Statement.createTable.injEq, true_and] at hcol
      simp [prizeTable, h₀, hcol]
    · cases h'.symm.trans hmade

/-- An entry made after the table check finds a prize table with the columns of
the start. -/
theorem Raced.state_past (h : Raced sv cp senders db log dbEnd result) {e : LogEntry κ}
    {es es' : List (LogEntry κ)} (hown : ownLog i log = e :: (es' ++ es))
    (htable : TableLog (senders i).answered i es' (.ok ())) :
    ∃ d tb, e.answer = sv.respond d e.stmt e.params ∧ d "account_prize" = some tb ∧
      tb.columns = (prizeTable db).columns := by
  obtain ⟨after, before, hlog, _, _, hbefore⟩ := List.filter_eq_cons_iff.mp hown
  have hrep := h.replays
  rw [hlog] at hrep
  obtain ⟨d, hd, ha, _⟩ := replays_around hrep
  have hofSend : ∀ e' ∈ before, Statement.OfSend e'.stmt := by
    intro e' he'
    apply h.ofSend
    rw [hlog]
    simp [he']
  obtain ⟨x, hx, hleft⟩ := htable.leaves_table sv (answered_not_faults _)
  have hx : x ∈ before := by
    apply List.mem_of_mem_filter
    rw [hbefore]
    exact List.mem_append_left _ hx
  obtain ⟨later, earlier, rfl⟩ := List.mem_iff_append.mp hx
  obtain ⟨d₁, _, h₁, hlater⟩ := replays_around hd
  obtain ⟨tb, htb⟩ := Option.isSome_iff_exists.mp (isSome_replays hlater (hleft d₁ h₁))
  exact ⟨d, tb, ha, htb, columns_ofSend hd hofSend htb⟩

omit [DecidableEq κ] in
theorem readyDb_table : readyDb db "account_prize" = some (prizeTable db) := by
  simp [readyDb]

theorem takes_iff {d : Database} {tb : Table} (htb : d "account_prize" = some tb)
    (hcol : tb.columns = (prizeTable db).columns) :
    Takes sv cp db p ↔
      ∃ row, sv.respond d insertQuery (p.values cp) = .inserted "account_prize" row :=
  ⟨respond_insert_congr readyDb_table htb hcol.symm,
    respond_insert_congr htb readyDb_table hcol⟩

theorem respond_insert_unbound {d : Database} {params : List Value} {row : Row}
    (h : sv.respond d insertQuery params = .inserted "account_prize" row) :
    sv.respond d insertQuery [] = .error erWrongArguments := by
  have hrefused : insertQuery.refused d = none := by
    cases hr : insertQuery.refused d with
    | none => rfl
    | some errno =>
      unfold Server.respond at h
      rw [hr] at h
      cases h
  unfold Server.respond
  rw [hrefused]
  dsimp only [insertQuery]
  cases d "account_prize" <;> rfl

theorem Raced.past_result (h : Raced sv cp senders db log dbEnd result)
    (hpast : PastTable cp (senders i) i (ownLog i log) r) :
    r = .ok () ↔ Takes sv cp db (senders i) := by
  obtain ⟨es, es', es'', hown, _, htable, hprize⟩ := hpast
  cases hprize with
  | @stored a k y hok =>
    rw [List.singleton_append] at hown
    obtain ⟨d, tb, ha, htb, hcol⟩ := h.state_past hown htable
    obtain ⟨_, row, _, hrow, _⟩ := insert_answer ha hok
    refine ⟨fun _ => (takes_iff htb hcol).mpr ⟨row, ?_⟩, fun _ => rfl⟩
    exact ha.symm.trans hrow
  | @unprepared db₀ errno what hdb₀ =>
    rw [List.singleton_append] at hown
    obtain ⟨d, tb, ha, htb, hcol⟩ := h.state_past hown htable
    refine ⟨nofun, fun htakes => ?_⟩
    obtain ⟨row, hrow⟩ := (takes_iff htb hcol).mp htakes
    have herrno : Answer.error errno = .error erWrongArguments :=
      ha.trans (respond_insert_unbound hrow)
    exact absurd (Answer.error.inj herrno) (refused_ne_wrongArguments hdb₀)
  | @refused errno y what =>
    rw [List.singleton_append] at hown
    obtain ⟨d, tb, ha, htb, hcol⟩ := h.state_past hown htable
    refine ⟨nofun, fun htakes => ?_⟩
    obtain ⟨row, hrow⟩ := (takes_iff htb hcol).mp htakes
    have hne : Answer.error errno = .inserted "account_prize" row := ha.trans hrow
    cases hne
  | faulted hf => exact absurd hf (answered_not_faults _)

theorem Raced.allOk_iff [Fintype κ] (h : Raced sv cp senders db log dbEnd result) :
    (∀ i, result i = .ok ()) ↔
      ((db "account_prize").isSome ∨ earlyProbes log ≤ 1) ∧ ∀ i, Takes sv cp db (senders i) := by
  rw [← h.allPast_iff]
  constructor
  · intro hok
    have hpast : ∀ i, PastTable cp (senders i) i (ownLog i log) (result i) := by
      intro i
      rcases h.pastTable_or_blocked i with hi | ⟨_, _, _, hi, _⟩
      · exact hi
      · rw [hok i] at hi
        cases hi
    exact ⟨hpast, fun i => (h.past_result (hpast i)).mp (hok i)⟩
  · rintro ⟨hpast, htakes⟩ i
    exact (h.past_result (hpast i)).mpr (htakes i)

/-! The rows. -/

def IsPrizeOf (sv : Sql.Server) (cp : CodePage UInt16 UInt8) (db : Database) (p : Sender)
    (row : Row) : Prop :=
  ∀ c ∈ insertGiven (cp.encode p.prize.mUsername) p.prize.mWorld p.prize.mCharguid p.prize.mItem
    p.prize.mCount p.clock, sv.Stored (prizeTable db).columns row c.1 c.2

/-- A sender that has returned has made one INSERT, its last statement, with
the reading of its clock. -/
theorem Ended.own_insert {ι : Type} {g : κ → ι → Choice}
    (h : Ended sv cp g senders db log dbEnd result) (hclock : ∀ y, (g i y).clock = (senders i).clock)
    (hok : result i = .ok ()) :
    ∃ e rest row, ownLog i log = e :: rest ∧ (∀ e ∈ rest, e.appends = false) ∧
      e.answer = .inserted "account_prize" row ∧ IsPrizeOf sv cp db (senders i) row := by
  have hnot : ∀ e ∈ ownLog i log, e.stmt ≠ insertQuery → e.appends = false := by
    intro e he hst
    by_contra ha
    have he := List.mem_of_mem_filter he
    obtain ⟨columns, values, hins⟩ := appends_insert h.replays he (by simpa using ha)
    rcases h.ofSend e he with h' | h' | h' | h'
    · cases h'.symm.trans hins
    · cases h'.symm.trans hins
    · cases h'.symm.trans hins
    · exact hst h'
  have hsend := h.sends i
  rw [hok] at hsend
  generalize hown : ownLog i log = own at hsend
  cases hsend with
  | @prize es es' es'' _ haccount htable hprize =>
    cases hprize with
    | @stored a k y hreply =>
      obtain ⟨after, before, hlog, _, _, _⟩ := List.filter_eq_cons_iff.mp hown
      have hrep := h.replays
      rw [hlog] at hrep
      obtain ⟨d, hd, ha, _⟩ := replays_around hrep
      obtain ⟨tb, row, htb, hrow, hstored⟩ := insert_answer ha hreply
      have hbefore : ∀ e ∈ before, Statement.OfSend e.stmt := by
        intro e he
        apply h.ofSend
        rw [hlog]
        simp [he]
      rw [columns_ofSend hd hbefore htb, hclock] at hstored
      refine ⟨_, es' ++ es, row, rfl, ?_, hrow, hstored⟩
      intro e he
      apply hnot e
      · rw [hown]
        exact List.mem_append_right _ he
      · rcases List.mem_append.mp he with he | he
        · rcases htable.stmt e he with hst | hst <;> rw [hst] <;> decide
        · rw [haccount.stmt e he]
          decide

/-- The rows added to the prize table, each with its sender, oldest first. -/
def addedRows (log : List (LogEntry κ)) : List (κ × Row) :=
  (log.filterMap fun e => (e.answer.row? "account_prize").map fun row => (e.sender, row)).reverse

omit [DecidableEq κ] in
theorem rowsOf_addedRows (hrep : Replays sv db log dbEnd) :
    rowsOf dbEnd "account_prize" = rowsOf db "account_prize" ++ (addedRows log).map Prod.snd := by
  rw [rowsOf_replays hrep, addedRows, List.map_reverse, List.map_filterMap]
  simp [Function.comp_def]

theorem count_addedRows : ((addedRows log).map Prod.fst).count i =
    (ownLog i log).countP LogEntry.appends := by
  rw [addedRows, List.map_reverse, List.count_reverse, List.map_filterMap, List.count,
    List.countP_filterMap, ownLog, List.countP_filter]
  apply List.countP_congr
  intro e _
  simp only [LogEntry.appends]
  cases e.answer.row? "account_prize" <;> simp

theorem Ended.addedRows_spec {ι : Type} {g : κ → ι → Choice}
    (h : Ended sv cp g senders db log dbEnd result)
    (hclock : ∀ i y, (g i y).clock = (senders i).clock) (hok : ∀ i, result i = .ok ()) :
    (∀ i, ((addedRows log).map Prod.fst).count i = 1) ∧
      ∀ a ∈ addedRows log, IsPrizeOf sv cp db (senders a.1) a.2 := by
  constructor
  · intro i
    obtain ⟨e, rest, row, hown, hrest, hrow, _⟩ := h.own_insert (hclock i) (hok i)
    have hzero : rest.countP LogEntry.appends = 0 :=
      List.countP_eq_zero.mpr fun e he => by simp [hrest e he]
    have hone : e.appends = true := by simp [LogEntry.appends, hrow, Answer.row?]
    rw [count_addedRows, hown, List.countP_cons, hzero, hone]
    rfl
  · rintro ⟨i, added⟩ ha
    obtain ⟨x, hx, hpair⟩ := List.mem_filterMap.mp (List.mem_reverse.mp ha)
    obtain ⟨_, hadded, heq⟩ := Option.map_eq_some_iff.mp hpair
    cases heq
    obtain ⟨e, rest, row, hown, hrest, hrow, hprize⟩ :=
      h.own_insert (hclock x.sender) (hok x.sender)
    have hmem : x ∈ ownLog x.sender log := List.mem_filter.mpr ⟨hx, by simp⟩
    rw [hown] at hmem
    rcases List.mem_cons.mp hmem with rfl | hmem
    · have hsame : row = added := by simpa [hrow, Answer.row?] using hadded
      exact hsame ▸ hprize
    · have hnone := hrest x hmem
      simp [LogEntry.appends, hadded] at hnone

end PrizeSender
