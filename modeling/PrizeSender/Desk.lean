import PrizeSender.ProfileFile
import PrizeSender.Server

namespace PrizeSender

open Prog

/-- The machine of one operator: the profile files, the server, and the
messages shown, newest first. -/
structure Desk where
  files : Files
  server : ServerState Unit
  shown : List (WString × MbIcon)

/-- What is left open about one call of the dialogs. -/
structure DeskChoice where
  btnText : LineText
  calls : Nat → Choice

/-- The config file of a desk. -/
def Desk.appConfig (s : Desk) : Profile := s.files CTlPrizeSenderDlg.appConfigPath

def Desk.empty : Desk := ⟨fun _ => .empty, ⟨fun _ => none, []⟩, []⟩

def DeskChoice.answered : DeskChoice := ⟨⟨wide "发放奖励", by decide⟩, fun _ => {}⟩

/-- The profile functions act on the file that is named, and `processSendPrize`
runs against the server. -/
def desk (sv : Sql.Server) (cp : CodePage UInt16 UInt8) :
    Env UiCall UiCall.Reply DeskChoice Unit Desk :=
  fun x _ s c =>
  match c with
  | .getPrivateProfileString appName keyName default size fileName =>
    (s.files.getString appName keyName default size fileName, (), s)
  | .getPrivateProfileInt appName keyName default fileName =>
    (s.files.getInt appName keyName default fileName, (), s)
  | .writePrivateProfileString appName keyName value fileName =>
    ((), (), { s with files := s.files.write appName keyName value fileName })
  | .setDlgItemText .. => ((), (), s)
  | .afxMessageBox prompt icon => ((), (), { s with shown := (prompt, icon) :: s.shown })
  | .messageBox text _ icon => ((), (), { s with shown := (text, icon) :: s.shown })
  | .getWindowText => (x.btnText, (), s)
  | .setWindowText _ => ((), (), s)
  | .enableWindow _ => ((), (), s)
  | .processSendPrize db username world charguid item count =>
    let sent := (processSendPrize cp db username world charguid item count).run.run
      (serve sv ()) x.calls {} s.server
    (sent.1, (), { s with server := sent.2.2 })

variable {sv : Sql.Server} {cp : CodePage UInt16 UInt8} {ddxInt : WString → Option CInt}
variable {o : Nat → DeskChoice} {s : Desk}

variable {dlg : CTlPrizeSenderDlg} {config : CAppConfig} {filePath : String}

theorem loadFromFile_run : (CAppConfig.loadFromFile filePath).run (desk sv cp) o () s =
    ((s.files filePath).load, (), s) := rfl

theorem writeSettings_run (ps : List ((String × String) × WString)) :
    (writeSettings filePath ps).run (desk sv cp) o () s =
      ((), (), { s with files := s.files.writeAll ps filePath }) := by
  induction ps generalizing o s with
  | nil => rfl
  | cons p ps ih => exact ih

theorem saveToFile_run : (config.saveToFile filePath).run (desk sv cp) o () s =
    ((), (), { s with files := s.files.save config filePath }) := by
  rw [saveToFile_eq, writeSettings_run, files_save_eq]

theorem onDestroy_run : dlg.onDestroy.run (desk sv cp) o () s =
    ((), (), { s with files := s.files.save dlg.mAppConfig CTlPrizeSenderDlg.appConfigPath }) :=
  saveToFile_run

theorem updateData_show_run :
    (updateData (CTlPrizeSenderDlg.doDataExchange ddxInt .show) dlg).run (desk sv cp) o () s =
      ((true, dlg), (), s) := rfl

/-- A session without actions saves what it has loaded. -/
theorem session_nil_run : (session ddxInt cp []).run (desk sv cp) o () s = ((), (), { s with
    files := s.files.save s.appConfig.load CTlPrizeSenderDlg.appConfigPath }) := by
  obtain ⟨o₁, hload⟩ := run_bind (desk sv cp)
    (CAppConfig.loadFromFile CTlPrizeSenderDlg.appConfigPath) (sessionFrom ddxInt cp []) o () s
  rw [session_eq, hload, loadFromFile_run]
  obtain ⟨o₂, hshow⟩ := run_bind (desk sv cp) (updateData (CTlPrizeSenderDlg.doDataExchange
    ddxInt .show) s.appConfig.load.dialog)
    (fun x => x.2.onDestroy) o₁ () s
  rw [updateData_show_run] at hshow
  exact hshow.trans onDestroy_run

end PrizeSender
