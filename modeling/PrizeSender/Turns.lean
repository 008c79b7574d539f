import PrizeSender.Audit
import PrizeSender.CallBound

/-! No operator waits for another. -/

namespace PrizeSender

open Prog Sql CTlPrizeSenderDlg

variable {cp : CodePage UInt16 UInt8} {ddxInt : WString → Option CInt}

theorem loadFromFile_within (filePath : String) : (CAppConfig.loadFromFile filePath).Within 10 :=
  makes_within (loadFromFile_makes filePath)

theorem onDestroy_within (dlg : CTlPrizeSenderDlg) : dlg.onDestroy.Within 10 := by
  rw [onDestroy, saveToFile_eq]
  exact makes_within (writeSettings_makes appConfigPath (settings dlg.mAppConfig))

theorem shown_within {α : Type} (ts : List (EditId × WString)) (a : α) :
    (showTexts ts >>= fun _ => Pure.pure a : Ui α).Within ts.length := by
  have hshow := makes_within (showTexts_makes ts)
  rw [List.length_map] at hshow
  exact within_bind (m := 0) hshow fun _ => trivial

theorem doModal_within (presses : List Controls) (dlg : CDatabaseSettingDlg) :
    (dlg.doModal ddxInt presses).Within 5 := by
  unfold CDatabaseSettingDlg.doModal
  rw [updateData_db_show]
  apply within_bind (m := 0) (shown_within dlg.texts (true, dlg))
  rintro ⟨_, dlg⟩
  obtain ⟨dlg', hpress, _⟩ := pressOk_eq ddxInt presses dlg
  change (dlg.pressOk ddxInt presses).Within 0
  rw [hpress]
  trivial

theorem onShowSettingDlg_within (presses : List Controls) (dlg : CTlPrizeSenderDlg) :
    (dlg.onShowSettingDlg ddxInt presses).Within 5 := by
  apply within_bind (n := 5) (m := 0) (doModal_within presses _)
  rintro ⟨idOk, dlg'⟩
  cases idOk <;> trivial

theorem updateData_within (controls : Controls) (dlg : CTlPrizeSenderDlg) :
    (updateData (doDataExchange ddxInt (.save controls)) dlg).Within 1 := by
  cases ha : acceptPrize ddxInt controls with
  | some prize =>
    rw [updateData_prize_some dlg ha]
    trivial
  | none =>
    obtain ⟨dlg', _, hup | ⟨prompt, icon, hup⟩⟩ := updateData_prize_none dlg ha
    · rw [hup]
      trivial
    · rw [hup]
      exact fun _ => trivial

theorem onSendBnClicked_within (controls : Controls) (dlg : CTlPrizeSenderDlg) :
    (dlg.onSendBnClicked ddxInt cp controls).Within 8 := by
  apply within_bind (n := 1) (m := 7) (updateData_within controls dlg)
  rintro ⟨accepted, dlg'⟩
  cases accepted with
  | false => trivial
  | true =>
    intro btnText _ _ result
    cases result with
    | ok _ => exact fun _ _ _ => trivial
    | error what => exact fun _ _ _ => trivial

theorem play_within (actions : List Action) (dlg : CTlPrizeSenderDlg) :
    (dlg.play ddxInt cp actions).Within (8 * actions.length) := by
  induction actions generalizing dlg with
  | nil => trivial
  | cons action actions ih =>
    rw [List.length_cons, Nat.mul_succ, Nat.add_comm]
    cases action with
    | showSetting presses =>
      exact within_bind (within_mono (onShowSettingDlg_within presses dlg) (by omega)) ih
    | send controls => exact within_bind (onSendBnClicked_within controls dlg) ih
    | enter controls =>
      apply within_bind (within_mono (updateData_within controls dlg) (by omega))
      rintro ⟨accepted, dlg'⟩
      cases accepted with
      | true => trivial
      | false => exact ih dlg'

theorem session_within (actions : List Action) :
    (session ddxInt cp actions).Within (25 + 8 * actions.length) := by
  have hrest : ∀ config, (sessionFrom ddxInt cp actions config).Within
      (5 + (8 * actions.length + 10)) := by
    intro config
    rw [sessionFrom, updateData_show]
    apply within_bind (shown_within config.dialog.texts (true, config.dialog))
    rintro ⟨_, dlg⟩
    exact within_bind (play_within actions dlg) onDestroy_within
  rw [session_eq]
  exact within_mono (within_bind (loadFromFile_within _) hrest) (by omega)

/-- How many calls an operator makes at most, 32 for each one that sends. -/
def callBound (sessions : List (List Action)) : Nat :=
  (sessions.map fun actions => 25 + 8 * actions.length).sum * 32

theorem sittings_within (sessions : List (List Action)) : (sittings ddxInt cp sessions).Within
    (sessions.map fun actions => 25 + 8 * actions.length).sum := by
  induction sessions with
  | nil => trivial
  | cons actions sessions ih => exact within_bind (session_within actions) fun _ => ih

theorem carryOut_within (c : UiCall) : (carryOut cp c).Within 32 := by
  cases c with
  | processSendPrize db username world charguid item count =>
    have hcalls : ∀ c : DbCall, (perform (OfficeCall.db c) :
        Prog OfficeCall OfficeCall.Reply c.Reply).Within 1 := fun _ _ => trivial
    exact within_expand processSendPrize_within hcalls
  | _ => exact fun _ => trivial

/-- What is done in an operator's sessions bounds the calls made there, whatever
they return; after so many turns the operator has ended, however the others are
interleaved. -/
theorem officeHours_ends {n : Nat} (sv : Sql.Server) (cp : CodePage UInt16 UInt8)
    (ddxInt : WString → Option CInt) (workplaces : Fin n → Workplace) (db : Database)
    (schedule : List (Fin n × OfficeChoice)) (i : Fin n)
    (hturns : callBound (workplaces i).sessions ≤ (schedule.map Prod.fst).count i) :
    ((openOffice ddxInt cp workplaces db).threads i).prog.Within
      (callBound (workplaces i).sessions) ∧
    ((officeHours sv ddxInt cp workplaces db schedule).threads i).prog.result? = some () := by
  have hwithin : ((openOffice ddxInt cp workplaces db).threads i).prog.Within
      (callBound (workplaces i).sessions) :=
    within_expand (sittings_within _) carryOut_within
  have hended : ((officeHours sv ddxInt cp workplaces db schedule).threads i).prog.result?.isSome :=
    interleave_within hwithin hturns
  obtain ⟨_, hend⟩ := Option.isSome_iff_exists.mp hended
  exact ⟨hwithin, hend⟩

theorem officeHours_ends_admin :
    ((openOffice decimalInt asciiPage adminOffice adminDb).threads 0).prog.Within 1056 ∧
    ((officeHours .exact decimalInt asciiPage adminOffice adminDb (sideBySide 1056)).threads
      0).prog.result? = some () :=
  officeHours_ends .exact asciiPage decimalInt adminOffice adminDb (sideBySide 1056) 0
    (by decide +kernel)

end PrizeSender
