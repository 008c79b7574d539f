import PrizeSender.SendEffect
import PrizeSender.Accept
import PrizeSender.Desk

namespace PrizeSender

open Prog Sql

variable {sv : Sql.Server} {cp : CodePage UInt16 UInt8} {ddxInt : WString → Option CInt}

theorem mine_unit {s : ServerState Unit} : mine () s = s.log := by
  simp [mine]

def sendRun (sv : Sql.Server) (cp : CodePage UInt16 UInt8) (dbConfig : CAppConfigDb)
    (prize : CAppConfigPrize) (o : Nat → Choice) (s : ServerState Unit) :
    Except Bytes Unit × Client × ServerState Unit :=
  (processSendPrize cp dbConfig prize.mUsername prize.mWorld prize.mCharguid prize.mItem
    prize.mCount).run.run (serve sv ()) o {} s

/-- One run with the server to itself: it adds its own statements to the log and
replays their answers. -/
theorem sendRun_ran (sv : Sql.Server) (cp : CodePage UInt16 UInt8) (dbConfig : CAppConfigDb)
    (prize : CAppConfigPrize) (o : Nat → Choice) (s : ServerState Unit) :
    let run := sendRun sv cp dbConfig prize o s
    ∃ es, run.2.2.log = es ++ s.log ∧ Replays sv s.db es run.2.2.db ∧
      SendLog o () (cp.encode prize.mUsername) prize.mWorld prize.mCharguid prize.mItem
        prize.mCount es run.1 ∧
      ((∀ n, (o n).loses = false) → ∀ e ∈ es, e.delivered = true) := by
  intro run
  have hspec : Spec sv o () (processSendPrize cp dbConfig prize.mUsername prize.mWorld
    prize.mCharguid prize.mItem prize.mCount) _ {} (mine () s) := processSendPrize_spec
  obtain ⟨es, hlog, hsend⟩ := run_of_wp (hspec s rfl) id
  rw [run_comap] at hlog hsend
  rw [mine_unit, mine_unit] at hlog
  have hran : Ran sv (fun e => (∀ n, (o n).loses = false) → e.delivered = true) s run.2.2 := by
    refine run_keeps (I := fun _ s' => Ran sv _ s s') ?_ _ ran_refl
    intro n l s' c h
    exact serve_ran (fun e he hl => by simp [he.delivered, hl n]) h
  obtain ⟨es', hlog', hrep, hdel⟩ := hran
  obtain rfl : es' = es := List.append_cancel_right (hlog'.symm.trans hlog)
  exact ⟨es', hlog', hrep, hsend, fun hl e he => hdel e he hl⟩

/-- The message `OnSendBnClicked` ends with. -/
def sendMessage (cp : CodePage UInt16 UInt8) : Except Bytes Unit → WString × MbIcon
  | .ok _ => (wide "发送活动奖励成功", .information)
  | .error what => (wide "发送活动奖励失败: " ++ cp.decode (cString what), .stop)

def successMessage : WString × MbIcon := (wide "发送活动奖励成功", .information)

theorem sendMessage_eq_iff {r : Except Bytes Unit} :
    sendMessage cp r = successMessage ↔ r = .ok () := by
  cases r with
  | ok _ => simp [sendMessage, successMessage]
  | error e => simp [sendMessage, successMessage]

theorem reportSend_run {btnText : LineText} {r : Except Bytes Unit} {dlg : CTlPrizeSenderDlg}
    {o : Nat → DeskChoice} {s : Desk} :
    (reportSend cp btnText r >>= fun _ => Pure.pure dlg).run (desk sv cp) o () s =
      (dlg, (), { s with shown := sendMessage cp r :: s.shown }) := by
  cases r with
  | ok _ => rfl
  | error e => rfl

/-- Under an accepted form the send button runs `processSendPrize` once, as its
fourth call, and shows one message. -/
theorem onSendBnClicked_run {controls : Controls} {prize : CAppConfigPrize}
    (dlg : CTlPrizeSenderDlg) (ha : acceptPrize ddxInt controls = some prize)
    (o : Nat → DeskChoice) (s : Desk) :
    (dlg.onSendBnClicked ddxInt cp controls).run (desk sv cp) o () s =
      let sent := sendRun sv cp dlg.mAppConfig.mDbConfig prize (o 3).calls s.server
      (dlg.recorded prize, (),
        { s with server := sent.2.2, shown := sendMessage cp sent.1 :: s.shown }) := by
  rw [onSendBnClicked_accepted dlg ha]
  exact reportSend_run (s := { s with
    server := (sendRun sv cp dlg.mAppConfig.mDbConfig prize (o 3).calls s.server).2.2 })

theorem onSendBnClicked_shown {controls : Controls} {prize : CAppConfigPrize}
    (dlg : CTlPrizeSenderDlg) (ha : acceptPrize ddxInt controls = some prize)
    (o : Nat → DeskChoice) (s : Desk) :
    ((dlg.onSendBnClicked ddxInt cp controls).run (desk sv cp) o () s).2.2.shown =
        successMessage :: s.shown ↔
      (sendRun sv cp dlg.mAppConfig.mDbConfig prize (o 3).calls s.server).1 = .ok () := by
  simp only [onSendBnClicked_run dlg ha, List.cons.injEq, and_true, sendMessage_eq_iff]

theorem cString_encode {controls : Controls} {prize : CAppConfigPrize}
    (ha : acceptPrize ddxInt controls = some prize) :
    cString (cp.encode prize.mUsername) = cp.encode prize.mUsername := by
  apply cString_eq_self
  apply CodePage.zero_notMem_encode
  rw [(acceptPrize_some ha).1]
  exact fun h0 => ((controls .idcEdit1).oneLine 0 h0).1 rfl

/-- The columns of a new prize and what they are given. -/
def prizeGiven (account : Bytes) (prize : CAppConfigPrize) : List (String × Value) :=
  [("account", .text account), ("world", .int prize.mWorld.toInt),
    ("charguid", .int prize.mCharguid.toInt), ("itemid", .int prize.mItem.toInt),
    ("itemnum", .int prize.mCount.toInt), ("isget", .int 0)]

theorem prizeGiven_subset {account : Bytes} {prize : CAppConfigPrize} {t : BitVec 64}
    (hz : cString account = account) :
    ∀ p ∈ prizeGiven account prize, p ∈ insertGiven account prize.mWorld prize.mCharguid
      prize.mItem prize.mCount t := by
  intro p hp
  simp only [insertGiven, prizeGiven, List.mem_cons, List.not_mem_nil, or_false, hz] at hp ⊢
  tauto

/-- What one press of the send button has done to the tables. -/
structure SendOutcome (sv : Sql.Server) (account : Bytes) (prize : CAppConfigPrize)
    (db db' : Database) (success : Prop) : Prop where
  reported : success ↔
    ∃ row, rowsOf db' "account_prize" = rowsOf db "account_prize" ++ [row]
  stored : success → AccountExists sv db account ∧
    ∃ tb row, db' "account_prize" = some tb ∧
      rowsOf db' "account_prize" = rowsOf db "account_prize" ++ [row] ∧
      ∀ p ∈ prizeGiven account prize, sv.Stored tb.columns row p.1 p.2
  failed : ¬ success → db' = db ∨
    (db "account_prize" = none ∧ db' = withPrizeTable db ∧ AccountExists sv db account)
  others : ∀ table, table ≠ "account_prize" → db' table = db table
  earlier : rowsOf db "account_prize" <+: rowsOf db' "account_prize"

theorem rowsOf_withPrize {db : Database} {row : Row} :
    rowsOf (withPrize db row) "account_prize" = rowsOf db "account_prize" ++ [row] := by
  cases h : db "account_prize" <;> simp [rowsOf, withPrize, prizeTable, h]

theorem rowsOf_withPrizeTable {db : Database} (h : db "account_prize" = none) :
    rowsOf (withPrizeTable db) "account_prize" = rowsOf db "account_prize" := by
  simp [rowsOf, withPrizeTable, h]

theorem sendOutcome_ok {account : Bytes} {prize : CAppConfigPrize} {db : Database} {row : Row}
    (hacc : AccountExists sv db account)
    (hrow : ∀ p ∈ prizeGiven account prize, sv.Stored (prizeTable db).columns row p.1 p.2) :
    SendOutcome sv account prize db (withPrize db row) True where
  reported := ⟨fun _ => ⟨row, rowsOf_withPrize⟩, fun _ => trivial⟩
  stored _ := ⟨hacc, { prizeTable db with
    rows := (prizeTable db).rows ++ [row], nextId := (prizeTable db).nextId + 1 }, row,
    by simp [withPrize], rowsOf_withPrize, hrow⟩
  failed h := absurd trivial h
  others table ht := by simp [withPrize, ht]
  earlier := by simp [rowsOf_withPrize]

theorem sendOutcome_error {account : Bytes} {prize : CAppConfigPrize} {db db' : Database}
    (h : db' = db ∨
      (db "account_prize" = none ∧ db' = withPrizeTable db ∧ AccountExists sv db account)) :
    SendOutcome sv account prize db db' False := by
  have hrows : rowsOf db' "account_prize" = rowsOf db "account_prize" := by
    rcases h with rfl | ⟨hnone, rfl, _⟩
    · rfl
    · exact rowsOf_withPrizeTable hnone
  refine ⟨⟨False.elim, ?_⟩, False.elim, fun _ => h, ?_, ?_⟩
  · rintro ⟨row, hr⟩
    have := congrArg List.length (hrows.symm.trans hr)
    simp at this
  · intro table ht
    rcases h with rfl | ⟨_, rfl, _⟩
    · rfl
    · simp [withPrizeTable, ht]
  · exact hrows.symm ▸ List.prefix_rfl

/-- Under every combination of failures that have no effect, the send button
reports success exactly when it has appended one row, and what it leaves behind
otherwise is nothing or an empty prize table. -/
theorem onSendBnClicked_outcome (sv : Sql.Server) (cp : CodePage UInt16 UInt8)
    (ddxInt : WString → Option CInt) (dlg : CTlPrizeSenderDlg) (o : Nat → DeskChoice) (s : Desk)
    (controls : Controls) (prize : CAppConfigPrize)
    (ha : acceptPrize ddxInt controls = some prize)
    (hkept : ∀ n k, ((o n).calls k).loses = false) :
    let sent := sendRun sv cp dlg.mAppConfig.mDbConfig prize (o 3).calls s.server
    let s' := ((dlg.onSendBnClicked ddxInt cp controls).run (desk sv cp) o () s).2.2
    (sent.1 = .ok () ↔ s'.shown = successMessage :: s.shown) ∧
    SendOutcome sv (cp.encode prize.mUsername) prize s.server.db s'.server.db
      (s'.shown = successMessage :: s.shown) := by
  intro sent s'
  have hshown : s'.shown = successMessage :: s.shown ↔ sent.1 = .ok () :=
    onSendBnClicked_shown dlg ha o s
  refine ⟨hshown.symm, ?_⟩
  obtain ⟨es, _, hrep, hsend, hdel⟩ := sendRun_ran sv cp dlg.mAppConfig.mDbConfig prize
    (o 3).calls s.server
  have hdel := hdel (hkept 3)
  have hdb : s'.server.db = sent.2.2.db := by
    simp only [s', sent, onSendBnClicked_run dlg ha]
  rw [hshown, hdb]
  cases hr : sent.1 with
  | ok u =>
    rw [hr] at hsend
    obtain ⟨hacc, t, row, hdb', hstored⟩ := hsend.effect_ok hrep
    rw [hdb']
    have hz : cString (cp.encode prize.mUsername) = cp.encode prize.mUsername := cString_encode ha
    simpa using sendOutcome_ok hacc fun p hp => hstored p (prizeGiven_subset hz p hp)
  | error e =>
    rw [hr] at hsend
    simpa using sendOutcome_error (hsend.effect_error hdel hrep)

def adminDesk : Desk := { Desk.empty with server := ⟨adminDb, []⟩ }

theorem onSendBnClicked_outcome_admin :
    let s' := ((CTlPrizeSenderDlg.onSendBnClicked decimalInt asciiPage prizeForm {}).run
      (desk .exact asciiPage) (fun _ => .answered) () adminDesk).2.2
    SendOutcome .exact (ascii "admin") ⟨wide "admin", 0, 1, 20101001, 1⟩ adminDb s'.server.db
      (s'.shown = [successMessage]) :=
  (onSendBnClicked_outcome .exact asciiPage decimalInt {} (fun _ => .answered) adminDesk
    prizeForm ⟨wide "admin", 0, 1, 20101001, 1⟩ (by decide) fun _ _ => rfl).2

end PrizeSender
