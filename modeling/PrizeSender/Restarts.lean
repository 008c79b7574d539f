import PrizeSender.Desk

namespace PrizeSender

open Prog

variable {sv : Sql.Server} {cp : CodePage UInt16 UInt8} {ddxInt : WString → Option CInt}

/-- The desk once the dialog has been closed. -/
def closed (sv : Sql.Server) (cp : CodePage UInt16 UInt8) (o : Nat → DeskChoice)
    (dlg : CTlPrizeSenderDlg) (s : Desk) : Desk :=
  (dlg.onDestroy.run (desk sv cp) o () s).2.2

/-- The desk after `n` more sessions in which nothing is done. -/
def reopened (sv : Sql.Server) (cp : CodePage UInt16 UInt8) (ddxInt : WString → Option CInt)
    (o : Nat → Nat → DeskChoice) (s : Desk) : Nat → Desk
  | 0 => s
  | n + 1 => ((session ddxInt cp []).run (desk sv cp) (o n) () (reopened sv cp ddxInt o s n)).2.2

/-- The string settings a session finds. -/
def loadedStrings (sv : Sql.Server) (cp : CodePage UInt16 UInt8) (o : Nat → DeskChoice)
    (s : Desk) : List WString :=
  strings ((CAppConfig.loadFromFile CTlPrizeSenderDlg.appConfigPath).run (desk sv cp) o () s).1

abbrev KeptSetting (t : WString) : Prop := Ini.Kept blank quote 149 t

theorem appConfig_closed {o : Nat → DeskChoice} {dlg : CTlPrizeSenderDlg} {s : Desk} :
    (closed sv cp o dlg s).appConfig = s.appConfig.save dlg.mAppConfig := by
  simp only [closed, onDestroy_run, Desk.appConfig, Files.save_self]

theorem appConfig_reopened {o : Nat → Nat → DeskChoice} {s : Desk} (n : Nat) :
    (reopened sv cp ddxInt o s (n + 1)).appConfig =
      (reopened sv cp ddxInt o s n).appConfig.save (reopened sv cp ddxInt o s n).appConfig.load := by
  simp only [reopened, session_nil_run, Desk.appConfig, Files.save_self]

theorem loadedStrings_eq {o : Nat → DeskChoice} {s : Desk} :
    loadedStrings sv cp o s = strings s.appConfig.load := rfl

theorem reopened_file {config : CAppConfig} {s : Desk} {F : Profile} {o : Nat → Nat → DeskChoice}
    (hs : s.appConfig = F.save config) (hline : ∀ t ∈ strings config, OneLine t)
    (hkept : ∀ t ∈ strings config, KeptSetting t) (n : Nat) :
    strings (reopened sv cp ddxInt o s n).appConfig.load = strings config := by
  have hread : (strings config).map (Ini.readText blank quote 149) = strings config := by
    conv_rhs => rw [← List.map_id (strings config)]
    exact List.map_inj_left.mpr fun t ht => Ini.readText_eq_self_iff.mpr (hkept t ht)
  induction n with
  | zero => rw [reopened, hs, strings_load_save hline, hread]
  | succ n ih =>
    rw [appConfig_reopened, strings_load_save oneLine_load, ih, hread]

/-- The string settings of every later session are the ones saved if and only
if each of them fits the buffer, has no blank at its ends and is not quoted. -/
theorem strings_survive_iff (sv : Sql.Server) (cp : CodePage UInt16 UInt8)
    (ddxInt : WString → Option CInt) (o : Nat → Nat → DeskChoice) (o' : Nat → DeskChoice)
    (dlg : CTlPrizeSenderDlg) (s : Desk) (hline : ∀ t ∈ strings dlg.mAppConfig, OneLine t) :
    (∀ n, loadedStrings sv cp o' (reopened sv cp ddxInt o (closed sv cp o' dlg s) n) =
      strings dlg.mAppConfig) ↔ ∀ t ∈ strings dlg.mAppConfig, KeptSetting t := by
  constructor
  · intro h t ht
    have h0 := h 0
    rw [loadedStrings_eq, reopened, appConfig_closed, strings_load_save hline] at h0
    apply Ini.readText_eq_self_iff.mp
    have hmap : (strings dlg.mAppConfig).map (Ini.readText blank quote 149) =
        (strings dlg.mAppConfig).map id := by rw [h0, List.map_id]
    exact List.map_inj_left.mp hmap t ht
  · intro hkept n
    exact reopened_file appConfig_closed hline hkept n

def withPassword (password : WString) : CTlPrizeSenderDlg where
  mAppConfig :=
    { mDbConfig :=
      { mHost := wide "localhost", mPort := 3306, mName := wide "tlbb", mUsername := wide "root",
        mPassword := password } }

theorem strings_survive_secret :
    (∀ t ∈ strings (withPassword (wide "secret")).mAppConfig, KeptSetting t) ∧
    ∀ n, loadedStrings .exact asciiPage (fun _ => .answered)
        (reopened .exact asciiPage (fun _ => none) (fun _ _ => .answered)
          (closed .exact asciiPage (fun _ => .answered) (withPassword (wide "secret")) .empty) n) =
      strings (withPassword (wide "secret")).mAppConfig :=
  ⟨by decide, (strings_survive_iff .exact asciiPage (fun _ => none) (fun _ _ => .answered)
    (fun _ => .answered) (withPassword (wide "secret")) .empty (by decide)).mpr (by decide)⟩

/-- A blank in front of the password is lost in the next session. -/
theorem strings_lose_blank :
    ¬ ∀ n, loadedStrings .exact asciiPage (fun _ => .answered)
        (reopened .exact asciiPage (fun _ => none) (fun _ _ => .answered)
          (closed .exact asciiPage (fun _ => .answered) (withPassword (wide " secret")) .empty) n) =
      strings (withPassword (wide " secret")).mAppConfig := by
  intro h
  have h0 := h 0
  rw [loadedStrings_eq, reopened, appConfig_closed, strings_load_save (by decide)] at h0
  revert h0
  decide

end PrizeSender
