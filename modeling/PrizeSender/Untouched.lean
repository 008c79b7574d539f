import PrizeSender.SendPort
import PrizeSender.Told

/-! Forms that are confirmed as the program has shown them. -/

namespace PrizeSender

open Prog CTlPrizeSenderDlg

/-- What the controls hold after a call. -/
def onScreen (form : EditId → WString) : UiEvent → EditId → WString
  | ⟨.setDlgItemText id text, _⟩ => Function.update form id text
  | _ => form

def shown (tr : List UiEvent) : EditId → WString := tr.foldl onScreen fun _ => []

def Controls.texts (controls : Controls) : EditId → WString := fun id => (controls id).text

/-- The action confirms only what is shown: by `this` in the settings dialog, by
`form` in the main window. -/
def CTlPrizeSenderDlg.Action.Untouched (ddxInt : WString → Option CInt) (this : CTlPrizeSenderDlg)
    (form : EditId → WString) : Action → Prop
  | .showSetting presses => ∀ controls ∈ presses, ∀ o,
    controls.texts = shown ((this.onShowSettingDlg ddxInt []).trace o).1
  | .send controls => controls.texts = form
  | .enter controls => controls.texts = form

/-- A prize that the form accepts. -/
def CAppConfigPrize.Sendable (prize : CAppConfigPrize) : Prop :=
  prize.mUsername ≠ [] ∧ 1 ≤ prize.mItem.toInt ∧ 1 ≤ prize.mCount.toInt

instance {prize : CAppConfigPrize} : Decidable prize.Sendable :=
  inferInstanceAs (Decidable (_ ∧ _ ∧ _))

def prizeTexts (prize : CAppConfigPrize) : EditId → WString
  | .idcEdit1 => prize.mUsername
  | .idcEdit2 => formatInt prize.mWorld.toInt
  | .idcEdit3 => formatInt prize.mCharguid.toInt
  | .idcEdit4 => formatInt prize.mItem.toInt
  | .idcEdit5 => formatInt prize.mCount.toInt

def dbTexts (db : CAppConfigDb) : EditId → WString
  | .idcEdit1 => db.mHost
  | .idcEdit2 => formatInt (db.mPort.setWidth 32 : CInt).toInt
  | .idcEdit3 => db.mUsername
  | .idcEdit4 => db.mPassword
  | .idcEdit5 => db.mName

variable {ddxInt : WString → Option CInt} {cp : CodePage UInt16 UInt8} {controls : Controls}
variable {prize : CAppConfigPrize} {db : CAppConfigDb} {o : Nat → (c : UiCall) → c.Reply}

theorem onInitDialog_eq : onInitDialog ddxInt {} = (do
    let config ← CAppConfig.loadFromFile appConfigPath
    let (_, dlg) ← updateData (doDataExchange ddxInt .show) config.dialog
    Pure.pure dlg) := rfl

theorem show_dialog (ddxInt : WString → Option CInt) (config : CAppConfig) (form : EditId → WString)
    (o : Nat → (c : UiCall) → c.Reply) :
    let run := (updateData (doDataExchange ddxInt .show) config.dialog >>= fun x =>
      Pure.pure x.2 : Ui CTlPrizeSenderDlg).trace o
    run.1.foldl onScreen form = prizeTexts config.mPrizeConfig ∧ run.2.mAppConfig = config := by
  refine ⟨?_, rfl⟩
  funext id
  cases id <;> rfl

theorem shown_onInitDialog (ddxInt : WString → Option CInt) (o : Nat → (c : UiCall) → c.Reply) :
    shown ((onInitDialog ddxInt {}).trace o).1 =
      prizeTexts ((onInitDialog ddxInt {}).trace o).2.mAppConfig.mPrizeConfig := by
  rw [onInitDialog_eq, trace_bind, shown, List.foldl_append]
  obtain ⟨hshown, hconfig⟩ := show_dialog ddxInt
    ((CAppConfig.loadFromFile appConfigPath).trace o).2
    (((CAppConfig.loadFromFile appConfigPath).trace o).1.foldl onScreen fun _ => [])
    fun n => o (n + ((CAppConfig.loadFromFile appConfigPath).trace o).1.length)
  exact hshown.trans (congrArg (fun c => prizeTexts c.mPrizeConfig) hconfig.symm)

theorem shown_onShowSettingDlg (this : CTlPrizeSenderDlg) :
    shown ((this.onShowSettingDlg ddxInt []).trace o).1 = dbTexts this.mAppConfig.mDbConfig := by
  funext id
  cases id <;> rfl

theorem acceptPrize_shown (hddx : ∀ n : CInt, ddxInt (formatInt n.toInt) = some n)
    (h : controls.texts = prizeTexts prize) :
    acceptPrize ddxInt controls = if prize.Sendable then some prize else none := by
  have htext : ∀ id, (controls id).text = prizeTexts prize id := congrFun h
  simp only [acceptPrize, htext, prizeTexts, hddx, Option.bind_eq_bind, Option.bind_some]
  rfl

/-- A port that is shown is accepted unless it is 0. -/
theorem acceptDb_shown (hddx : ∀ n : CInt, ddxInt (formatInt n.toInt) = some n)
    (h : controls.texts = dbTexts db) :
    acceptDb ddxInt controls = if db.mPort = 0 then none else some db := by
  have htext : ∀ id, (controls id).text = dbTexts db id := congrFun h
  simp only [acceptDb, htext, dbTexts, hddx, Option.bind_eq_bind, Option.bind_some]
  have hport : (db.mPort.setWidth 32).setWidth 16 = db.mPort := by simp
  have hint : (db.mPort.setWidth 32).toInt = db.mPort.toNat := by
    have hlt := db.mPort.isLt
    rw [BitVec.toInt_eq_toNat_cond, BitVec.toNat_setWidth]
    omega
  have hzero : db.mPort = 0 ↔ db.mPort.toNat = 0 := BitVec.toNat_eq.trans (by simp)
  have hlt := db.mPort.isLt
  rw [hint, hport]
  by_cases h0 : db.mPort.toNat = 0
  · rw [if_neg (by omega), if_pos (hzero.mpr h0)]
  · rw [if_pos (by omega), if_neg (hzero.not.mpr h0)]

/-- The presses of Send up to the first Enter. -/
def sendsBeforeEnter : List Action → Nat
  | [] => 0
  | .showSetting _ :: actions => sendsBeforeEnter actions
  | .send _ :: actions => sendsBeforeEnter actions + 1
  | .enter _ :: _ => 0

theorem findSome_shown (hddx : ∀ n : CInt, ddxInt (formatInt n.toInt) = some n)
    {presses : List Controls} (h : ∀ controls ∈ presses, controls.texts = dbTexts db) :
    (presses.findSome? (acceptDb ddxInt)).getD db = db := by
  cases hf : presses.findSome? (acceptDb ddxInt) with
  | none => rfl
  | some db' =>
    obtain ⟨controls, hmem, haccept⟩ := List.exists_of_findSome?_eq_some hf
    rw [acceptDb_shown hddx (h controls hmem)] at haccept
    split at haccept
    next => cases haccept
    next => exact (Option.some.inj haccept).symm

/-- What is confirmed as it is shown stays as it is. -/
theorem play_shown (hddx : ∀ n : CInt, ddxInt (formatInt n.toInt) = some n) (actions : List Action)
    (c : Confirmed) (dlg : CTlPrizeSenderDlg) (hdb : dlg.mAppConfig.mDbConfig = c.D)
    (h : ∀ action ∈ actions, action.Untouched ddxInt dlg (prizeTexts c.P)) :
    c.play ddxInt actions =
      (List.replicate (if c.P.Sendable then sendsBeforeEnter actions else 0) (.send c.D c.P), c) := by
  induction actions with
  | nil => simp [Confirmed.play, sendsBeforeEnter]
  | cons action actions ih =>
    obtain ⟨hnow, hlater⟩ := List.forall_mem_cons.mp h
    cases action with
    | showSetting presses =>
      have hpresses : ∀ controls ∈ presses, controls.texts = dbTexts c.D := by
        intro controls hmem
        rw [hnow controls hmem fun _ => blankReply, shown_onShowSettingDlg, hdb]
      have hfound := findSome_shown hddx hpresses
      rw [Confirmed.play, sendsBeforeEnter, ← ih hlater]
      cases hf : presses.findSome? (acceptDb ddxInt) with
      | none => rfl
      | some D =>
        rw [hf] at hfound
        obtain rfl : D = c.D := hfound
        rfl
    | send controls =>
      rw [Confirmed.play, acceptPrize_shown hddx hnow, sendsBeforeEnter]
      split
      next P hP =>
        split at hP
        next hs =>
          obtain rfl := Option.some.inj hP
          have ih := ih hlater
          rw [if_pos hs] at ih
          simp only [ih, if_pos hs, List.replicate_succ]
        next => cases hP
      next hP =>
        have hs : ¬ c.P.Sendable := fun hs => by simp [hs] at hP
        simpa only [if_neg hs] using ih hlater
    | enter controls =>
      rw [Confirmed.play, acceptPrize_shown hddx hnow, sendsBeforeEnter]
      split
      next P hP =>
        simp
      next hP =>
        have hs : ¬ c.P.Sendable := fun hs => by simp [hs] at hP
        simpa only [if_neg hs] using ih hlater

/-- A session in which every form is confirmed as it is shown sends the prize of
the file through the settings of the file, once for each press of Send, if it can
be sent at all, and saves what it has loaded. -/
theorem untouched_session (ddxInt : WString → Option CInt) (cp : CodePage UInt16 UInt8)
    (hddx : ∀ n : CInt, ddxInt (formatInt n.toInt) = some n) (actions : List Action)
    (o : Nat → (c : UiCall) → c.Reply)
    (h : ∀ action ∈ actions, action.Untouched ddxInt ((onInitDialog ddxInt {}).trace o).2
      (shown ((onInitDialog ddxInt {}).trace o).1)) :
    let c := ((onInitDialog ddxInt {}).trace o).2.mAppConfig.confirmed
    ((session ddxInt cp actions).trace o).1.filterMap observe =
      List.replicate (if c.P.Sendable then sendsBeforeEnter actions else 0) (.send c.D c.P) ++
        c.writes := by
  intro c
  rw [shown_onInitDialog] at h
  rw [session_acts actions o (onInitDialog_acts ddxInt o).2.symm]
  have hplay : c.play ddxInt actions = _ := play_shown hddx actions c _ rfl h
  change Confirmed.session ddxInt actions c = _
  rw [Confirmed.session, hplay]

/-- A file with a prize and no settings. -/
def adminFile : Profile :=
  Profile.empty.write "prize" "username" (wide "admin")
    |>.write "prize" "charguid" (wide "1")
    |>.write "prize" "item" (wide "20101001")
    |>.write "prize" "count" (wide "1")

/-- The settings as they are shown for it. -/
def defaultDbForm : Controls
  | .idcEdit2 => firstLine (wide "3306")
  | _ => firstLine []

def adminConfirmed : Confirmed := ⟨{ mPort := 3306 }, ⟨wide "admin", 0, 1, 20101001, 1⟩⟩

/-- Send is pressed twice, and OK in the settings dialog in between. -/
theorem untouched_session_admin :
    ((session decimalInt asciiPage [.send prizeForm, .showSetting [defaultDbForm],
        .send prizeForm, .enter prizeForm]).trace
        (adminFile.answering fun _ => blankReply)).1.filterMap observe =
      List.replicate 2 (.send adminConfirmed.D adminConfirmed.P) ++ adminConfirmed.writes := by
  have hddx : ∀ n : CInt, decimalInt (formatInt n.toInt) = some n := by
    simp [decimalInt, wholeInt_formatInt]
  have hload : ((onInitDialog decimalInt {}).trace
      (adminFile.answering fun _ => blankReply)).2.mAppConfig = adminConfirmed.config :=
    (onInitDialog_acts _ _).2.trans (loadFromFile_answering.trans (by decide))
  have hprize : prizeForm.texts = prizeTexts adminConfirmed.P := by
    funext id
    cases id <;> decide
  have hdb : defaultDbForm.texts = dbTexts adminConfirmed.D := by
    funext id
    cases id <;> decide
  have h := untouched_session decimalInt asciiPage hddx [.send prizeForm,
    .showSetting [defaultDbForm], .send prizeForm, .enter prizeForm]
    (adminFile.answering fun _ => blankReply) (by
      rw [shown_onInitDialog, hload]
      intro action haction
      simp only [List.mem_cons, List.not_mem_nil, or_false] at haction
      rcases haction with rfl | rfl | rfl | rfl
      · exact hprize
      · intro controls hcontrols o
        obtain rfl := List.mem_singleton.mp hcontrols
        rw [shown_onShowSettingDlg, hload]
        exact hdb
      · exact hprize
      · exact hprize)
  rw [hload] at h
  exact h

end PrizeSender
