import PrizeSender.Serial

namespace PrizeSender

open Prog Sql

variable {κ ι : Type} {sv : Sql.Server} {cp : CodePage UInt16 UInt8} {senders : κ → Sender}
variable {db d dbEnd : Database} {log es : List (LogEntry κ)} {is : List κ}

section

variable {g : ι → Choice} {i : κ} {account : Bytes} {world charguid item count : CInt}
variable {r : Except Bytes Unit}

/-- A run that appends a row has found its account before. -/
theorem SendLog.appends_account (h : SendLog g i account world charguid item count es r)
    (hans : ∀ e ∈ es, ∃ d, d "account" = db "account" ∧ e.answer = sv.respond d e.stmt e.params)
    {e : LogEntry κ} (he : e ∈ es) (hst : e.stmt = insertQuery) : AccountExists sv db account := by
  have hcheck : ∀ es, AccountLog g i account es r → e ∉ es := by
    intro es haccount he
    cases (haccount.stmt e he).symm.trans hst
  cases h with
  | unsent => cases he
  | account haccount => exact absurd he (hcheck es haccount)
  | table haccount htable =>
    rcases List.mem_append.mp he with he | he
    · rcases htable.stmt e he with h | h <;> cases h.symm.trans hst
    · cases (haccount.stmt e he).symm.trans hst
  | prize haccount =>
    cases id haccount with
    | @found n hn =>
      obtain ⟨d, hd, ha⟩ := hans _ (List.mem_append_right _ (List.mem_append_right _
        List.mem_cons_self))
      have hacc := haccount.accountExists (replays_singleton.mpr ⟨ha, rfl⟩)
      simpa only [AccountExists, hd] using hacc

theorem SendLog.countP_appends_le (h : SendLog g i account world charguid item count es r)
    (hst : ∀ e ∈ es, e.appends = true → e.stmt = insertQuery) :
    es.countP LogEntry.appends ≤ 1 := by
  have hnone : ∀ es' : List (LogEntry κ), (∀ e ∈ es', e ∈ es ∧ e.stmt ≠ insertQuery) →
      es'.countP LogEntry.appends = 0 := by
    intro es' hes'
    apply List.countP_eq_zero.mpr
    intro e he ha
    exact (hes' e he).2 (hst e (hes' e he).1 ha)
  have haccount : ∀ {es' : List (LogEntry κ)} {r'}, AccountLog g i account es' r' →
      ∀ e ∈ es', e.stmt ≠ insertQuery := by
    intro es' r' haccount e he h
    cases (haccount.stmt e he).symm.trans h
  have htable : ∀ {es' : List (LogEntry κ)} {r'}, TableLog g i es' r' →
      ∀ e ∈ es', e.stmt ≠ insertQuery := by
    intro es' r' htable e he h
    rcases htable.stmt e he with h' | h' <;> cases h'.symm.trans h
  cases h with
  | unsent => simp
  | account ha => rw [hnone es fun e he => ⟨he, haccount ha e he⟩]; omega
  | @table es es' _ ha ht =>
    rw [List.countP_append, hnone es' fun e he => ⟨by simp [he], htable ht e he⟩,
      hnone es fun e he => ⟨by simp [he], haccount ha e he⟩]
    omega
  | @prize es es' es'' _ ha ht hp =>
    have hone : es''.length ≤ 1 := by
      cases hp with
      | stored => simp
      | unprepared => simp
      | refused => simp
      | faulted _ _ hlen => exact hlen
    have hle : es''.countP LogEntry.appends ≤ es''.length := List.countP_le_length
    rw [List.countP_append, List.countP_append,
      hnone es' fun e he => ⟨by simp [he], htable ht e he⟩,
      hnone es fun e he => ⟨by simp [he], haccount ha e he⟩]
    omega

/-- A run that returns has made its INSERT and got the answer. -/
theorem SendLog.delivered_insert (h : SendLog g i account world charguid item count es (.ok ()))
    (hans : ∀ e ∈ es, ∃ d, e.answer = sv.respond d e.stmt e.params) :
    (∃ e ∈ es, e.appends = true) ∧ ∀ e ∈ es, e.stmt = insertQuery → e.delivered = true := by
  cases h with
  | @prize es es' es'' _ haccount htable hprize =>
    cases hprize with
    | @stored a n y hr =>
      constructor
      · obtain ⟨d, ha⟩ := hans _ List.mem_cons_self
        obtain ⟨_, row, _, hrow, _⟩ := insert_answer ha hr
        have hrow : a = .inserted "account_prize" row := hrow
        exact ⟨_, List.mem_cons_self, by simp [LogEntry.appends, sent, hrow, Answer.row?]⟩
      · intro e he hst
        rcases List.mem_append.mp he with he | he
        · rw [List.mem_singleton.mp he]
          rfl
        · rcases List.mem_append.mp he with he | he
          · rcases htable.stmt e he with h | h <;> cases h.symm.trans hst
          · cases (haccount.stmt e he).symm.trans hst

/-- A row of a run that throws comes from an INSERT whose reply was lost. -/
theorem SendLog.lost_insert {what : Bytes}
    (h : SendLog g i account world charguid item count es (.error what)) {e : LogEntry κ}
    (he : e ∈ es) (hst : e.stmt = insertQuery) (ha : e.appends = true) :
    Faults g ∧ e.delivered = false := by
  cases h with
  | unsent => cases he
  | account haccount => cases (haccount.stmt e he).symm.trans hst
  | table haccount htable =>
    rcases List.mem_append.mp he with he | he
    · rcases htable.stmt e he with h | h <;> cases h.symm.trans hst
    · cases (haccount.stmt e he).symm.trans hst
  | prize haccount htable hprize =>
    rcases List.mem_append.mp he with he | he
    · cases hprize with
      | unprepared =>
        obtain rfl := List.mem_singleton.mp he
        cases ha
      | refused =>
        obtain rfl := List.mem_singleton.mp he
        cases ha
      | faulted hf hes _ => exact ⟨hf, (hes e he).2⟩
    · rcases List.mem_append.mp he with he | he
      · rcases htable.stmt e he with h | h <;> cases h.symm.trans hst
      · cases (haccount.stmt e he).symm.trans hst

end

theorem appends_stmt (hrep : Replays sv db log dbEnd) (hst : ∀ e ∈ log, Statement.OfSend e.stmt)
    {e : LogEntry κ} (he : e ∈ log) (ha : e.appends = true) : e.stmt = insertQuery := by
  obtain ⟨columns, values, hins⟩ := appends_insert hrep he ha
  rcases hst e he with h | h | h | h
  · cases h.symm.trans hins
  · cases h.symm.trans hins
  · cases h.symm.trans hins
  · exact h

variable [DecidableEq κ]

section

variable {g : κ → ι → Choice} {plan : List (κ × ι)} {i : κ} {r : Except Bytes Unit}
variable {result : κ → Except Bytes Unit}

theorem pool_own :
    let pool := (startPool cp senders db).interleave (fun i y => serve sv i (g i y)) plan
    (pool.threads i).prog.result? = some r →
    ∀ e ∈ ownLog i pool.shared.log, e.OwnPrize (g i) (cp.encode (senders i).prize.mUsername)
      (senders i).prize.mWorld (senders i).prize.mCharguid (senders i).prize.mItem
      (senders i).prize.mCount := by
  intro pool hr
  have hquiet : ∀ i j y l s c, i ≠ j →
      (Interference.keeping (mine i)).step s (serve sv j (g j y) l s c).2.2 :=
    fun i j _ _ _ _ hij => serve_mine_ne hij.symm
  have hstart : ∀ i, ((startPool cp senders db).threads i).prog.wp (fun y => serve sv i (g i y))
      (.keeping (mine i)) (fun _ _ s => AddsOwn (g i) (cp.encode (senders i).prize.mUsername)
        (senders i).prize.mWorld (senders i).prize.mCharguid (senders i).prize.mItem
        (senders i).prize.mCount [] (mine i s)) {} ⟨db, []⟩ :=
    fun i => processSendPrize_own _ rfl
  obtain ⟨es, hown, hprize⟩ := interleave_ended hquiet plan hstart hr
  rw [List.append_nil] at hown
  subst hown
  exact hprize

/-- Senders that have all ended leave a history. -/
theorem pool_history (hclock : ∀ i y, (g i y).clock = (senders i).clock) :
    let pool := (startPool cp senders db).interleave (fun i y => serve sv i (g i y)) plan
    (∀ i, (pool.threads i).prog.result? = some (result i)) →
    History sv cp senders db pool.shared.log pool.shared.db := by
  intro pool hresult
  have h : Ended sv cp g senders db pool.shared.log pool.shared.db result := pool_ended hresult
  refine ⟨h.replays, h.ofSend, ?_⟩
  intro e he ha
  have hst := appends_stmt h.replays h.ofSend he ha
  have hmem : e ∈ ownLog e.sender pool.shared.log := List.mem_filter.mpr ⟨he, by simp⟩
  constructor
  · rcases pool_own (hresult e.sender) e hmem hst with hnil | ⟨y, hvs⟩
    · obtain ⟨d, hd⟩ := replays_mem h.replays he
      cases hans : e.answer with
      | inserted table row =>
        rw [hans, hst, hnil] at hd
        obtain ⟨_, _, _, _, hq, _, _, hvs, _⟩ := respond_inserted hd.symm
        cases hq
        cases hvs
      | rows n => simp [LogEntry.appends, hans, Answer.row?] at ha
      | created table columns => simp [LogEntry.appends, hans, Answer.row?] at ha
      | error errno => simp [LogEntry.appends, hans, Answer.row?] at ha
    · rw [hvs, insertValues, hclock]
      rfl
  · exact (h.sends e.sender).appends_account
      (fun e' he' => answered_account h.replays h.ofSend (List.mem_of_mem_filter he')) hmem hst

theorem Ended.nodup_addedRows (h : Ended sv cp g senders db log dbEnd result) :
    ((addedRows log).map Prod.fst).Nodup := by
  apply List.nodup_iff_count_le_one.mpr
  intro i
  rw [count_addedRows]
  apply (h.sends i).countP_appends_le
  intro e he ha
  exact appends_stmt h.replays h.ofSend (List.mem_of_mem_filter he) ha

theorem mem_addedRows : i ∈ (addedRows log).map Prod.fst ↔
    ∃ e ∈ log, e.sender = i ∧ e.appends = true := by
  rw [← List.count_pos_iff, count_addedRows, List.countP_pos_iff]
  simp only [ownLog, List.mem_filter, decide_eq_true_eq, and_assoc]

end

/-- Each of the senders in its turn runs from its start to its end, all its
calls being answered. -/
def inTurn (is : List κ) : List (κ × Bytes) := is.flatMap fun i => List.replicate 32 (i, [])

omit [DecidableEq κ] in
theorem inTurn_snoc (is : List κ) (i : κ) :
    inTurn (is ++ [i]) = inTurn is ++ List.replicate 32 (i, []) := by
  simp [inTurn]

/-- The program carries out sends in turn: each sender returns, and the store
is the one meant. -/
theorem race_inTurn (h : SentInTurn sv cp senders db is d) (hnodup : is.Nodup) :
    let pool := race sv cp senders db (inTurn is)
    pool.shared.db = d ∧ (∀ i ∈ is, (pool.threads i).prog.result? = some (.ok ())) ∧
      ∀ i ∉ is, pool.threads i = (startPool cp senders db).threads i := by
  induction h with
  | nil => exact ⟨rfl, by simp, fun _ _ => rfl⟩
  | @snoc is d i row _ hacc hrow ih =>
    obtain ⟨hnodup, _, hne⟩ := List.nodup_append.mp hnodup
    have hi : i ∉ is := fun hi => hne i hi i List.mem_cons_self rfl
    obtain ⟨hdb, hdone, hstart⟩ := ih hnodup
    intro pool
    have hpool : pool = (race sv cp senders db (inTurn is)).interleave (answering sv senders)
        (List.replicate 32 (i, [])) := by
      simp only [pool, race, inTurn_snoc, interleave_append]
    generalize race sv cp senders db (inTurn is) = before at hdb hdone hstart hpool
    have hwithin : (before.threads i).prog.Within 32 := by
      rw [hstart i hi]
      exact processSendPrize_within
    have halone := interleave_alone (answering sv senders) [] hwithin
    obtain ⟨es, _, hrep, hsend⟩ := run_sendLog sv cp i (senders i).answered (senders i)
      (fun _ => []) before.shared
    subst hdb
    rw [hstart i hi] at halone
    generalize hout : ((startPool cp senders db).threads i).prog.run (answering sv senders i)
      (fun _ => []) ((startPool cp senders db).threads i).own before.shared = out at halone
    obtain ⟨hok, hd⟩ : out.1 = .ok () ∧ out.2.2.db = withPrize before.shared.db row := by
      rw [← hout]
      exact hsend.sends_alone hrep hacc hrow
    rw [hpool, halone]
    refine ⟨hd, ?_, ?_⟩
    · intro j hj
      by_cases hji : j = i
      · subst hji
        simp [hok, result?]
      · have hj : j ∈ is := by simpa [hji] using hj
        simpa only [Function.update_of_ne hji] using hdone j hj
    · intro j hj
      obtain ⟨hj, hji⟩ : j ∉ is ∧ j ≠ i := by simpa using hj
      simpa only [Function.update_of_ne hji] using hstart j hj

omit [DecidableEq κ] in
/-- A sender whose every call is refused leaves the server alone. -/
theorem serve_refused {i : κ} {x : Choice} {errno : Errno} (hx : x.outcome = .refused errno)
    (l : Client) (s : ServerState κ) (c : DbCall) : (serve sv i x l s c).2.2 = s := by
  cases c with
  | mysqlStmtPrepare stmt q => simp [serve, Choice.fails, hx]
  | mysqlStmtExecute stmt =>
    simp only [serve, submit, hx]
    split <;> rfl
  | mysqlRealQuery conn q => simp [serve, submit, hx]
  | _ => rfl

omit [DecidableEq κ] in
theorem SentInTurn.table_isSome (h : SentInTurn sv cp senders db is d) :
    is = [] ∧ d = db ∨ (d "account_prize").isSome := by
  cases h with
  | nil => exact Or.inl ⟨rfl, rfl⟩
  | snoc => exact Or.inr (by simp [withPrize])

/-- A moment at which every sender has ended or can have its next calls refused:
the server is as it would be if all had ended. -/
theorem pool_asEnded {n : Nat} (sv : Sql.Server) (cp : CodePage UInt16 UInt8)
    (senders : Fin n → Sender) (db : Database) {g : Fin n → ι → Choice} {plan : List (Fin n × ι)}
    (hclock : ∀ i y, (g i y).clock = (senders i).clock) (y : ι) :
    let pool := (startPool cp senders db).interleave (fun i y => serve sv i (g i y)) plan
    (∀ i, (pool.threads i).prog.result?.isSome ∨ (g i y).outcome = .refused 0) →
    ∃ result : Fin n → Except Bytes Unit,
      Ended sv cp g senders db pool.shared.log pool.shared.db result ∧
      History sv cp senders db pool.shared.log pool.shared.db ∧
      ∀ i r, (pool.threads i).prog.result? = some r → result i = r := by
  intro pool hready
  let unended := (List.finRange n).filter fun i => (pool.threads i).prog.result?.isNone
  have hidle : ∀ i ∈ unended, Idle (fun i y => serve sv i (g i y)) y i := by
    intro i hi
    have hnone : (pool.threads i).prog.result?.isNone = true := (List.mem_filter.mp hi).2
    rcases hready i with hsome | hx
    · rw [Option.isNone_iff_eq_none.mp hnone] at hsome
      cases hsome
    · exact serve_refused hx
  obtain ⟨rest, hshared, hended⟩ := exists_completion hidle pool
  have hall : ∀ i, ∃ r, ((pool.interleave (fun i y => serve sv i (g i y)) rest).threads
      i).prog.result? = some r := by
    intro i
    cases hi : (pool.threads i).prog.result? with
    | some r => exact ⟨r, interleave_result? rest hi⟩
    | none => exact hended i (List.mem_filter.mpr ⟨List.mem_finRange i, by simp [hi]⟩)
  choose result hresult using hall
  have hkept : ∀ i r, (pool.threads i).prog.result? = some r → result i = r := by
    intro i r hr
    exact Option.some.inj ((hresult i).symm.trans (interleave_result? rest hr))
  have hpool : pool.interleave (fun i y => serve sv i (g i y)) rest =
      (startPool cp senders db).interleave (fun i y => serve sv i (g i y)) (plan ++ rest) :=
    (interleave_append _ _ _ _).symm
  rw [hpool] at hshared hresult
  rw [← hshared]
  exact ⟨result, pool_ended hresult, pool_history hclock hresult, hkept⟩

theorem sendAll_asEnded {n : Nat} (sv : Sql.Server) (cp : CodePage UInt16 UInt8)
    (senders : Fin n → Sender) (db : Database) (schedule : List (Fin n × Choice)) :
    let pool := sendAll sv cp senders db schedule
    ∃ result : Fin n → Except Bytes Unit,
      Ended sv cp (fun i => (senders i).clocked) senders db pool.shared.log pool.shared.db result ∧
      History sv cp senders db pool.shared.log pool.shared.db ∧
      ∀ i r, (pool.threads i).prog.result? = some r → result i = r :=
  pool_asEnded sv cp senders db (fun _ _ => rfl) { outcome := .refused 0 } fun _ => Or.inr rfl

theorem sendAll_between {n : Nat} (sv : Sql.Server) (cp : CodePage UInt16 UInt8)
    (senders : Fin n → Sender) (db : Database) (schedule rest : List (Fin n × Choice)) :
    let now := sendAll sv cp senders db schedule
    let later := sendAll sv cp senders db (schedule ++ rest)
    Ran sv (fun e => Statement.OfSend e.stmt) now.shared later.shared := by
  intro now later
  have hlater : later = now.interleave (fun i x => serve sv i ((senders i).clocked x)) rest :=
    interleave_append _ _ _ _
  have hran : Ran sv (fun _ => True) now.shared later.shared := by
    rw [hlater]
    exact interleave_keeps (p := now) (I := Ran sv (fun _ => True) now.shared)
      (fun _ _ _ _ _ h => serve_ran (fun _ _ => trivial) h) rest ran_refl
  obtain ⟨es, hlog, hrep, _⟩ := hran
  obtain ⟨_, hend, _, _⟩ := sendAll_asEnded sv cp senders db (schedule ++ rest)
  exact ⟨es, hlog, hrep, fun e he => hend.ofSend e (by rw [hlog]; simp [he])⟩

/-- How a send that has added its row ends, now or later, is decided by whether
the reply to its INSERT got through. -/
theorem sendAll_fate {n : Nat} (sv : Sql.Server) (cp : CodePage UInt16 UInt8)
    (senders : Fin n → Sender) (db : Database) (schedule rest : List (Fin n × Choice))
    {e : LogEntry (Fin n)} {r : Except Bytes Unit}
    (he : e ∈ (sendAll sv cp senders db schedule).shared.log) (ha : e.appends = true)
    (hr : ((sendAll sv cp senders db (schedule ++ rest)).threads e.sender).prog.result? = some r) :
    r = .ok () ↔ e.delivered = true := by
  obtain ⟨es, hlog, _⟩ := sendAll_between sv cp senders db schedule rest
  obtain ⟨result, hend, _, hkept⟩ := sendAll_asEnded sv cp senders db (schedule ++ rest)
  have hlater : e ∈ (sendAll sv cp senders db (schedule ++ rest)).shared.log := by
    rw [hlog]
    exact List.mem_append_right _ he
  have hmem : e ∈ ownLog e.sender (sendAll sv cp senders db (schedule ++ rest)).shared.log :=
    List.mem_filter.mpr ⟨hlater, by simp⟩
  have hst := appends_stmt hend.replays hend.ofSend hlater ha
  have hsend := hend.sends e.sender
  rw [hkept _ r hr] at hsend
  cases r with
  | ok u =>
    have hdelivered := (hsend.delivered_insert fun e' he' =>
      replays_mem hend.replays (List.mem_of_mem_filter he')).2 e hmem hst
    simp [hdelivered]
  | error what =>
    have hlost := (hsend.lost_insert hmem hst ha).2
    simp [hlost]

/-- What holds of the sends at a moment, `order` being the one in which they are
serialized. -/
structure Serialized {n : Nat} (sv : Sql.Server) (cp : CodePage UInt16 UInt8)
    (senders : Fin n → Sender) (db : Database) (schedule : List (Fin n × Choice))
    (order : List (Fin n)) : Prop where
  once : order.Nodup
  inserted : ∀ i, i ∈ order ↔
    ∃ e ∈ (sendAll sv cp senders db schedule).shared.log, e.sender = i ∧ e.appends = true
  returned : ∀ i,
    ((sendAll sv cp senders db schedule).threads i).prog.result? = some (.ok ()) → i ∈ order
  fate : ∀ e ∈ (sendAll sv cp senders db schedule).shared.log, e.appends = true → ∀ rest r,
    ((sendAll sv cp senders db (schedule ++ rest)).threads e.sender).prog.result? = some r →
    (r = .ok () ↔ e.delivered = true)
  sent : ∀ i ∈ order, ((race sv cp senders db (inTurn order)).threads i).prog.result? =
    some (.ok ())
  store : (sendAll sv cp senders db schedule).shared.db =
      (race sv cp senders db (inTurn order)).shared.db ∨
    order = [] ∧ db "account_prize" = none ∧
      (sendAll sv cp senders db schedule).shared.db = withPrizeTable db

/-- At every moment of every interleaving, under all faults, the store is that
of sends that run one after the other, in the order of their INSERTs; while none
has added a row, the prize table may have been created empty. The sends in the
order are those that have added a row, all that have returned among them, and
whenever one of these ends it returns if and only if the reply to its INSERT got
through. -/
theorem sendAll_serialized {n : Nat} (sv : Sql.Server) (cp : CodePage UInt16 UInt8)
    (senders : Fin n → Sender) (db : Database) (schedule : List (Fin n × Choice)) :
    Serialized sv cp senders db schedule
      ((addedRows (sendAll sv cp senders db schedule).shared.log).map Prod.fst) := by
  obtain ⟨result, hend, hhist, hkept⟩ := sendAll_asEnded sv cp senders db schedule
  obtain ⟨d, hturn, hsame⟩ := hhist.sentInTurn
  obtain ⟨hdb, hsent, _⟩ := race_inTurn hturn hend.nodup_addedRows
  refine ⟨hend.nodup_addedRows, fun i => mem_addedRows, ?_, ?_, hsent, ?_⟩
  · intro i hi
    obtain ⟨e, rest, row, hown, _, hrow, _⟩ := hend.own_insert (fun _ => rfl) (hkept i _ hi)
    have he : e ∈ ownLog i (sendAll sv cp senders db schedule).shared.log := by simp [hown]
    obtain ⟨he, hsender⟩ := List.mem_filter.mp he
    exact mem_addedRows.mpr ⟨e, he, by simpa using hsender, by simp [LogEntry.appends, hrow,
      Answer.row?]⟩
  · intro e he ha rest r hr
    exact sendAll_fate sv cp senders db schedule rest he ha hr
  · rw [hdb]
    rcases hsame with hs | ⟨hnone, hs⟩
    · exact Or.inl hs
    · rcases hturn.table_isSome with ⟨hnil, rfl⟩ | hsome
      · exact Or.inr ⟨hnil, hnone, hs⟩
      · simp [hnone] at hsome

end PrizeSender
