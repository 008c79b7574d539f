import PrizeSender.Race
import PrizeSender.Completion

/-! A sender that has the server to itself, all its calls being answered. -/

namespace PrizeSender

open Prog Sql

variable {κ ι : Type} {sv : Sql.Server} {cp : CodePage UInt16 UInt8} {g : ι → Choice} {i : κ}
variable {db db' : Database} {es log : List (LogEntry κ)} {p : Sender} {row : Row}
variable {r : Except Bytes Unit}

theorem answered_account (hrep : Replays sv db log db') (hst : ∀ e ∈ log, Statement.OfSend e.stmt)
    {e : LogEntry κ} (he : e ∈ log) :
    ∃ d, d "account" = db "account" ∧ e.answer = sv.respond d e.stmt e.params := by
  obtain ⟨after, before, rfl⟩ := List.mem_iff_append.mp he
  obtain ⟨d, hd, ha, _⟩ := replays_around hrep
  refine ⟨d, replays_frame_stmt hd ?_, ha⟩
  intro e' he'
  exact OfSend.keeps_account (hst e' (by simp [he']))

theorem readyDb_eq_self (h : (db "account_prize").isSome) : readyDb db = db := by
  obtain ⟨tb, htb⟩ := Option.isSome_iff_exists.mp h
  rw [readyDb, prizeTable, htb, Option.getD_some, ← htb, Function.update_eq_self]

theorem readyDb_eq_withPrizeTable (h : db "account_prize" = none) :
    readyDb db = withPrizeTable db := by
  rw [readyDb, prizeTable, h]
  rfl

theorem withPrize_eq_apply :
    withPrize db row = (Answer.inserted "account_prize" row).apply (readyDb db) := by
  simp [withPrize, Answer.apply, readyDb]

/-- After a probe that has found no table the CREATE TABLE makes it. -/
theorem replays_missed {b : Answer}
    (h : Replays sv db [sent i createTableSql [] b,
      sent i checkTableQuery [] (.error erNoSuchTable)] db') :
    b = .created "account_prize" prizeColumns ∧ db' = readyDb db := by
  have hboth : Replays sv db ([sent i createTableSql [] b] ++
      [sent i checkTableQuery [] (.error erNoSuchTable)]) db' := h
  obtain ⟨d, hprobe, hcreate⟩ := replays_split hboth
  obtain ⟨hmiss, hd⟩ := replays_singleton.mp hprobe
  obtain ⟨ha, rfl⟩ := replays_singleton.mp hcreate
  have hnone : db "account_prize" = none := ((misses_iff hmiss).mp (by simp [LogEntry.misses, sent])).2
  have hd : d = db := hd
  have ha : b = sv.respond d createTableSql [] := ha
  rw [respond_create, hd, hnone] at ha
  rw [readyDb_eq_withPrizeTable hnone, hd, ha]
  exact ⟨rfl, rfl⟩

/-- Without faults the table check succeeds and leaves a prize table. -/
theorem TableLog.ready (h : TableLog g i es r) (hf : ¬ Faults g) (hrep : Replays sv db es db') :
    r = .ok () ∧ db' = readyDb db := by
  cases h with
  | @found a n hok =>
    obtain ⟨ha, rfl⟩ := replays_singleton.mp hrep
    have ha : a = sv.respond db checkTableQuery [] := ha
    rw [respond_probe] at ha
    split at ha
    next hs =>
      rw [readyDb_eq_self hs, ha]
      exact ⟨rfl, rfl⟩
    next =>
      rw [ha] at hok
      cases hok
  | made _ => exact ⟨rfl, (replays_missed hrep).2⟩
  | unmade => cases (replays_missed hrep).1
  | @refused errno what hn =>
    have ha : Answer.error errno = sv.respond db checkTableQuery [] :=
      (replays_singleton.mp hrep).1
    rw [respond_probe] at ha
    split at ha
    next => cases ha
    next => exact absurd (Answer.error.inj ha) hn
  | faulted hf' => exact absurd hf' hf

/-- Without faults a prize that the table takes is inserted. -/
theorem PrizeLog.inserts {account : Bytes} {world charguid item count : CInt} {vs : List Value}
    (h : PrizeLog g i account world charguid item count es r) (hf : ¬ Faults g)
    (hvs : ∀ y, insertValues g account world charguid item count y = vs)
    (hrep : Replays sv db es db') (hrow : sv.respond db insertQuery vs = .inserted "account_prize" row) :
    r = .ok () ∧ db' = (Answer.inserted "account_prize" row).apply db := by
  cases h with
  | @stored a n y _ =>
    obtain ⟨ha, rfl⟩ := replays_singleton.mp hrep
    rw [hvs] at ha ⊢
    have ha : a = sv.respond db insertQuery vs := ha
    rw [ha, hrow]
    exact ⟨rfl, rfl⟩
  | @unprepared _ errno what hdb =>
    obtain ⟨ha, rfl⟩ := replays_singleton.mp hrep
    have herrno : Answer.error errno = .error erWrongArguments :=
      ha.trans (respond_insert_unbound hrow)
    exact absurd (Answer.error.inj herrno) (refused_ne_wrongArguments hdb)
  | @refused errno y what =>
    obtain ⟨ha, rfl⟩ := replays_singleton.mp hrep
    rw [hvs] at ha
    have hne : Answer.error errno = .inserted "account_prize" row := ha.trans hrow
    cases hne
  | faulted hf' => exact absurd hf' hf

theorem SendLog.sends_alone
    (h : SendLog p.answered i (cp.encode p.prize.mUsername) p.prize.mWorld p.prize.mCharguid
      p.prize.mItem p.prize.mCount es r)
    (hrep : Replays sv db es db') (hacc : AccountExists sv db (cp.encode p.prize.mUsername))
    (hrow : sv.respond (readyDb db) insertQuery (p.values cp) = .inserted "account_prize" row) :
    r = .ok () ∧ db' = withPrize db row := by
  have hf := answered_not_faults p
  have hans : ∀ e ∈ es, ∃ d, d "account" = db "account" ∧ e.answer = sv.respond d e.stmt e.params :=
    fun e he => answered_account hrep h.stmt he
  cases h with
  | unsent hf' => exact absurd hf' hf
  | account haccount => cases haccount.ok_of_exists hf hacc hans
  | table haccount htable =>
    obtain ⟨_, _, hrep'⟩ := replays_split hrep
    cases (htable.ready hf hrep').1
  | prize haccount htable hprize =>
    obtain ⟨db₂, hrep₂, hrep''⟩ := replays_split hrep
    obtain ⟨db₁, hrep₁, hrep'⟩ := replays_split hrep₂
    obtain rfl := haccount.keeps hrep₁
    obtain ⟨_, rfl⟩ := htable.ready hf hrep'
    rw [withPrize_eq_apply]
    exact hprize.inserts hf (fun _ => rfl) hrep'' hrow

/-- The calls of one sender add its own statements to the log. -/
theorem run_sendLog [DecidableEq κ] (sv : Sql.Server) (cp : CodePage UInt16 UInt8) (i : κ)
    (g : ι → Choice) (p : Sender) (o : Nat → ι) (s : ServerState κ) :
    let run := (processSendPrize cp p.dbConfig p.prize.mUsername p.prize.mWorld p.prize.mCharguid
      p.prize.mItem p.prize.mCount).run.run (fun y => serve sv i (g y)) o {} s
    ∃ es, run.2.2.log = es ++ s.log ∧ Replays sv s.db es run.2.2.db ∧
      SendLog g i (cp.encode p.prize.mUsername) p.prize.mWorld p.prize.mCharguid p.prize.mItem
        p.prize.mCount es run.1 := by
  intro run
  have hspec : Spec sv g i (processSendPrize cp p.dbConfig p.prize.mUsername p.prize.mWorld
    p.prize.mCharguid p.prize.mItem p.prize.mCount) _ {} (mine i s) := processSendPrize_spec
  obtain ⟨es', hmine, hsend⟩ := run_of_wp (hspec s rfl) o
  have hran : Ran sv (fun e => e.sender = i) s run.2.2 := by
    refine run_keeps (I := fun _ s' => Ran sv _ s s') ?_ _ ran_refl
    intro n l s' c h
    exact serve_ran (fun e he => he.sender) h
  obtain ⟨es, hlog, hrep, hown⟩ := hran
  have hall : es.filter (fun e => e.sender = i) = es :=
    List.filter_eq_self.mpr fun e he => by simp [hown e he]
  have hmine' : mine i run.2.2 = es ++ mine i s := by
    rw [mine, hlog, List.filter_append, hall]
    rfl
  obtain rfl : es = es' := List.append_cancel_right (hmine'.symm.trans hmine)
  exact ⟨es, hlog, hrep, hsend⟩

end PrizeSender
