import PrizeSender.Delivery

namespace PrizeSender

open Prog Sql

variable {sv : Sql.Server} {cp : CodePage UInt16 UInt8} {ddxInt : WString → Option CInt}
variable {controls : Controls}

/-- Send is pressed with the same form until a press shows the success message;
the result is whether one did. -/
def pressUntilSuccess (sv : Sql.Server) (cp : CodePage UInt16 UInt8)
    (ddxInt : WString → Option CInt) (controls : Controls) :
    List (Nat → DeskChoice) → CTlPrizeSenderDlg → Desk → Bool × Desk
  | [], _, s => (false, s)
  | o :: attempts, dlg, s =>
    let (dlg, _, s) := (dlg.onSendBnClicked ddxInt cp controls).run (desk sv cp) o () s
    if s.shown.head? = some successMessage then (true, s)
    else pressUntilSuccess sv cp ddxInt controls attempts dlg s

/-- An INSERT of a prize that was applied while its reply was lost. -/
def LogEntry.lostInsert {κ : Type} (e : LogEntry κ) : Bool := e.appends && !e.delivered

theorem length_rowsOf {db db' : Database} {es : List (LogEntry Unit)}
    (h : Replays sv db es db') :
    (rowsOf db' "account_prize").length =
      (rowsOf db "account_prize").length + es.countP LogEntry.appends := by
  rw [rowsOf_replays h, List.length_append, List.length_reverse, List.length_filterMap_eq_countP]
  rfl

theorem sendRun_rows (sv : Sql.Server) (cp : CodePage UInt16 UInt8) (dbConfig : CAppConfigDb)
    (prize : CAppConfigPrize) (o : Nat → Choice) (s : ServerState Unit) :
    let run := sendRun sv cp dbConfig prize o s
    ∃ es, run.2.2.log = es ++ s.log ∧
      (rowsOf run.2.2.db "account_prize").length = (rowsOf s.db "account_prize").length +
        (if run.1 = .ok () then 1 else 0) + es.countP LogEntry.lostInsert := by
  intro run
  obtain ⟨es, hlog, hrep, hsend, _⟩ := sendRun_ran sv cp dbConfig prize o s
  refine ⟨es, hlog, ?_⟩
  rw [length_rowsOf hrep]
  cases hr : run.1 with
  | ok u =>
    rw [hr] at hsend
    obtain ⟨hone, hdel⟩ := hsend.appends_ok hrep
    have hnone : es.countP LogEntry.lostInsert = 0 := by
      apply List.countP_eq_zero.mpr
      intro x hx hl
      obtain ⟨ha, hd⟩ : x.appends = true ∧ x.delivered = false := by
        simpa [LogEntry.lostInsert] using hl
      simp [hdel x hx ha] at hd
    simp [hone, hnone]
  | error e =>
    rw [hr] at hsend
    have hall : es.countP LogEntry.appends = es.countP LogEntry.lostInsert := by
      apply List.countP_congr
      intro x hx
      simp only [LogEntry.lostInsert, Bool.and_eq_true, Bool.not_eq_eq_eq_not, Bool.not_true]
      exact ⟨fun ha => ⟨ha, hsend.appends_error hrep x hx ha⟩, fun h => h.1⟩
    simp [hall]

/-- The INSERT, the nineteenth call, is applied and its reply is lost; every
other call is answered. -/
def lostReply : DeskChoice where
  btnText := DeskChoice.answered.btnText
  calls n := if n = 18 then { outcome := .lost 2013 } else {}

/-- Over a whole run of presses the rows added are one for the success it ends
in, if it does, and one for each INSERT that was applied while its reply was
lost. -/
theorem pressUntilSuccess_rows (sv : Sql.Server) (cp : CodePage UInt16 UInt8)
    (ddxInt : WString → Option CInt) (controls : Controls) (prize : CAppConfigPrize)
    (ha : acceptPrize ddxInt controls = some prize) (attempts : List (Nat → DeskChoice))
    (dlg : CTlPrizeSenderDlg) (s : Desk) :
    let run := pressUntilSuccess sv cp ddxInt controls attempts dlg s
    ∃ es, run.2.server.log = es ++ s.server.log ∧
      (rowsOf run.2.server.db "account_prize").length =
        (rowsOf s.server.db "account_prize").length +
          (if run.1 then 1 else 0) + es.countP LogEntry.lostInsert := by
  induction attempts generalizing dlg s with
  | nil => exact ⟨[], rfl, by simp [pressUntilSuccess]⟩
  | cons o attempts ih =>
    obtain ⟨es, hlog, hrows⟩ := sendRun_rows sv cp dlg.mAppConfig.mDbConfig prize (o 3).calls
      s.server
    rw [pressUntilSuccess, onSendBnClicked_run dlg ha]
    generalize sendRun sv cp dlg.mAppConfig.mDbConfig prize (o 3).calls s.server = sent
      at hlog hrows
    simp only [List.head?_cons, Option.some.injEq, sendMessage_eq_iff]
    by_cases hok : sent.1 = .ok ()
    · simp only [if_pos hok] at hrows ⊢
      exact ⟨es, hlog, hrows⟩
    · simp only [if_neg hok] at hrows ⊢
      obtain ⟨es', hlog', hrows'⟩ := ih (dlg.recorded prize)
        { s with server := sent.2.2, shown := sendMessage cp sent.1 :: s.shown }
      refine ⟨es' ++ es, by rw [hlog', hlog, List.append_assoc], ?_⟩
      rw [hrows', hrows, List.countP_append]
      omega

theorem pressUntilSuccess_rows_admin :
    let run := pressUntilSuccess .exact asciiPage decimalInt prizeForm
      [fun _ => lostReply, fun _ => .answered] {} adminDesk
    ∃ es, run.2.server.log = es ++ [] ∧
      (rowsOf run.2.server.db "account_prize").length =
        0 + (if run.1 then 1 else 0) + es.countP LogEntry.lostInsert :=
  pressUntilSuccess_rows .exact asciiPage decimalInt prizeForm
    ⟨wide "admin", 0, 1, 20101001, 1⟩ (by decide) [fun _ => lostReply, fun _ => .answered] {}
    adminDesk

/-- One lost reply, and the second press stores the prize again. -/
theorem pressUntilSuccess_duplicates :
    let run := pressUntilSuccess .exact asciiPage decimalInt prizeForm
      [fun _ => lostReply, fun _ => .answered] {} adminDesk
    run.1 = true ∧ ¬ (rowsOf run.2.server.db "account_prize").length =
      (rowsOf adminDesk.server.db "account_prize").length + 1 := by
  decide

end PrizeSender
