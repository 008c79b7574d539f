import PrizeSender.Ui
import PrizeSender.Events

namespace PrizeSender

open Prog (makes_pure makes_perform)

def intMax : Int := 2147483647

def CAppConfig.loadFromFile (filePath : String) : Ui CAppConfig := do
  let nSize := 150
  let host ← getPrivateProfileString "db" "host" [] nSize filePath
  let port ← getPrivateProfileInt "db" "port" 3306 filePath
  let name ← getPrivateProfileString "db" "name" [] nSize filePath
  let username ← getPrivateProfileString "db" "username" [] nSize filePath
  let password ← getPrivateProfileString "db" "password" [] nSize filePath
  let mDbConfig : CAppConfigDb :=
    { mHost := host.text, mPort := port.setWidth 16, mName := name.text,
      mUsername := username.text, mPassword := password.text }
  let username ← getPrivateProfileString "prize" "username" [] nSize filePath
  let world ← getPrivateProfileInt "prize" "world" 0 filePath
  let charguid ← getPrivateProfileInt "prize" "charguid" 0 filePath
  let item ← getPrivateProfileInt "prize" "item" 0 filePath
  let count ← getPrivateProfileInt "prize" "count" 0 filePath
  let mPrizeConfig : CAppConfigPrize :=
    { mUsername := username.text, mWorld := world, mCharguid := charguid, mItem := item,
      mCount := count }
  pure { mDbConfig, mPrizeConfig }

def CAppConfig.saveToFile (config : CAppConfig) (filePath : String) : Ui Unit := do
  let db := config.mDbConfig
  writePrivateProfileString "db" "host" db.mHost filePath
  writePrivateProfileString "db" "port" (formatInt db.mPort.toNat) filePath
  writePrivateProfileString "db" "name" db.mName filePath
  writePrivateProfileString "db" "username" db.mUsername filePath
  writePrivateProfileString "db" "password" db.mPassword filePath
  let prize := config.mPrizeConfig
  writePrivateProfileString "prize" "username" prize.mUsername filePath
  writePrivateProfileString "prize" "world" (formatInt prize.mWorld.toInt) filePath
  writePrivateProfileString "prize" "charguid" (formatInt prize.mCharguid.toInt) filePath
  writePrivateProfileString "prize" "item" (formatInt prize.mItem.toInt) filePath
  writePrivateProfileString "prize" "count" (formatInt prize.mCount.toInt) filePath

/-- The section, key and text of each value, in the order of `saveToFile`. -/
def settings (config : CAppConfig) : List ((String × String) × WString) := [
  (("db", "host"), config.mDbConfig.mHost),
  (("db", "port"), formatInt config.mDbConfig.mPort.toNat),
  (("db", "name"), config.mDbConfig.mName),
  (("db", "username"), config.mDbConfig.mUsername),
  (("db", "password"), config.mDbConfig.mPassword),
  (("prize", "username"), config.mPrizeConfig.mUsername),
  (("prize", "world"), formatInt config.mPrizeConfig.mWorld.toInt),
  (("prize", "charguid"), formatInt config.mPrizeConfig.mCharguid.toInt),
  (("prize", "item"), formatInt config.mPrizeConfig.mItem.toInt),
  (("prize", "count"), formatInt config.mPrizeConfig.mCount.toInt)]

def writeSettings (filePath : String) : List ((String × String) × WString) → Ui Unit
  | [] => pure ()
  | ((appName, keyName), text) :: rest => do
    writePrivateProfileString appName keyName text filePath
    writeSettings filePath rest

theorem saveToFile_eq (config : CAppConfig) (filePath : String) :
    config.saveToFile filePath = writeSettings filePath (settings config) := rfl

def writeCalls (filePath : String) (ps : List ((String × String) × WString)) : List UiCall :=
  ps.map fun p => .writePrivateProfileString p.1.1 p.1.2 p.2 filePath

theorem writeSettings_makes (filePath : String) (ps : List ((String × String) × WString)) :
    (writeSettings filePath ps).Makes (writeCalls filePath ps) := by
  induction ps with
  | nil => exact makes_pure
  | cons p ps ih => exact makes_perform fun _ => ih

def loadCalls (filePath : String) : List UiCall := [
  .getPrivateProfileString "db" "host" [] 150 filePath,
  .getPrivateProfileInt "db" "port" 3306 filePath,
  .getPrivateProfileString "db" "name" [] 150 filePath,
  .getPrivateProfileString "db" "username" [] 150 filePath,
  .getPrivateProfileString "db" "password" [] 150 filePath,
  .getPrivateProfileString "prize" "username" [] 150 filePath,
  .getPrivateProfileInt "prize" "world" 0 filePath,
  .getPrivateProfileInt "prize" "charguid" 0 filePath,
  .getPrivateProfileInt "prize" "item" 0 filePath,
  .getPrivateProfileInt "prize" "count" 0 filePath]

theorem loadFromFile_makes (filePath : String) :
    (CAppConfig.loadFromFile filePath).Makes (loadCalls filePath) := by
  unfold CAppConfig.loadFromFile loadCalls
  repeat
    apply makes_perform
    intro _
  exact makes_pure

structure CDatabaseSettingDlg where
  mHost : WString := []
  mPort : CInt := 0
  mName : WString := []
  mUsername : WString := []
  mPassword : WString := []
  deriving DecidableEq, Repr

def CDatabaseSettingDlg.doDataExchange (ddxInt : WString → Option CInt) (pDX : CDataExchange) :
    Exchange CDatabaseSettingDlg Unit := do
  ddxText pDX .idcEdit1 mHost fun s dlg => { dlg with mHost := s }
  ddxTextInt ddxInt pDX .idcEdit2 mPort fun n dlg => { dlg with mPort := n }
  ddvMinMaxInt pDX (← get).mPort 1 65535
  ddxText pDX .idcEdit5 mName fun s dlg => { dlg with mName := s }
  ddxText pDX .idcEdit3 mUsername fun s dlg => { dlg with mUsername := s }
  ddxText pDX .idcEdit4 mPassword fun s dlg => { dlg with mPassword := s }

/-- Texts that are shown in the controls of a dialog. -/
def showTexts : List (EditId × WString) → Ui Unit
  | [] => pure ()
  | (id, text) :: rest => do
    Ui.call (.setDlgItemText id text)
    showTexts rest

theorem showTexts_makes (ts : List (EditId × WString)) :
    (showTexts ts).Makes (ts.map fun t => .setDlgItemText t.1 t.2) := by
  induction ts with
  | nil => exact makes_pure
  | cons t ts ih => exact makes_perform fun _ => ih

def CDatabaseSettingDlg.texts (dlg : CDatabaseSettingDlg) : List (EditId × WString) := [
  (.idcEdit1, dlg.mHost), (.idcEdit2, formatInt dlg.mPort.toInt), (.idcEdit5, dlg.mName),
  (.idcEdit3, dlg.mUsername), (.idcEdit4, dlg.mPassword)]

theorem updateData_db_show {ddxInt : WString → Option CInt} (dlg : CDatabaseSettingDlg) :
    updateData (CDatabaseSettingDlg.doDataExchange ddxInt .show) dlg = (do
      showTexts dlg.texts
      pure (true, dlg)) := rfl

/-- OK is pressed with the controls as listed until it is accepted, then
Cancel; the result is whether the dialog was closed by OK. -/
def CDatabaseSettingDlg.pressOk (ddxInt : WString → Option CInt) :
    List Controls → CDatabaseSettingDlg → Ui (Bool × CDatabaseSettingDlg)
  | [], dlg => pure (false, dlg)
  | controls :: presses, dlg => do
    let (accepted, dlg) ← updateData (doDataExchange ddxInt (.save controls)) dlg
    if accepted then
      pure (true, dlg)
    else
      pressOk ddxInt presses dlg

def CDatabaseSettingDlg.doModal (ddxInt : WString → Option CInt) (presses : List Controls)
    (dlg : CDatabaseSettingDlg) : Ui (Bool × CDatabaseSettingDlg) := do
  let (_, dlg) ← updateData (doDataExchange ddxInt .show) dlg
  pressOk ddxInt presses dlg

structure CTlPrizeSenderDlg where
  mAppConfig : CAppConfig := {}
  mUsername : WString := []
  mWorld : CInt := 0
  mCharguid : CInt := 0
  mItem : CInt := 0
  mCount : CInt := 0
  deriving DecidableEq, Repr

namespace CTlPrizeSenderDlg

def appConfigPath : String := "./config/config.ini"

def ddvUsernameNotEmpty (pDX : CDataExchange) (value : WString) :
    Exchange CTlPrizeSenderDlg Unit :=
  match pDX with
  | .save _ => do
    if value.length = 0 then
      Exchange.call (.afxMessageBox (wide "游戏账号不能为空") .exclamation)
      Exchange.fail
  | .show => pure ()

theorem exec_ddvUsernameNotEmpty {controls : Controls} {value : WString} {dlg : CTlPrizeSenderDlg}
    {k : Unit → Exchange CTlPrizeSenderDlg Unit} :
    (ddvUsernameNotEmpty (.save controls) value >>= k).exec dlg =
      if value = [] then
        Ui.call (.afxMessageBox (wide "游戏账号不能为空") .exclamation) >>= fun _ =>
          pure (.error (), dlg)
      else (k ()).exec dlg := by
  unfold ddvUsernameNotEmpty
  cases value with
  | nil => rfl
  | cons u s => rfl

def doDataExchange (ddxInt : WString → Option CInt) (pDX : CDataExchange) :
    Exchange CTlPrizeSenderDlg Unit := do
  ddxText pDX .idcEdit1 mUsername fun s dlg => { dlg with mUsername := s }
  ddxTextInt ddxInt pDX .idcEdit2 mWorld fun n dlg => { dlg with mWorld := n }
  ddxTextInt ddxInt pDX .idcEdit3 mCharguid fun n dlg => { dlg with mCharguid := n }
  ddxTextInt ddxInt pDX .idcEdit4 mItem fun n dlg => { dlg with mItem := n }
  ddxTextInt ddxInt pDX .idcEdit5 mCount fun n dlg => { dlg with mCount := n }
  ddvUsernameNotEmpty pDX (← get).mUsername
  ddvMinMaxInt pDX (← get).mItem 1 intMax
  ddvMinMaxInt pDX (← get).mCount 1 intMax

def texts (dlg : CTlPrizeSenderDlg) : List (EditId × WString) := [
  (.idcEdit1, dlg.mUsername), (.idcEdit2, formatInt dlg.mWorld.toInt),
  (.idcEdit3, formatInt dlg.mCharguid.toInt), (.idcEdit4, formatInt dlg.mItem.toInt),
  (.idcEdit5, formatInt dlg.mCount.toInt)]

theorem updateData_show {ddxInt : WString → Option CInt} (dlg : CTlPrizeSenderDlg) :
    updateData (doDataExchange ddxInt .show) dlg = (do
      showTexts dlg.texts
      pure (true, dlg)) := rfl

def onInitDialog (ddxInt : WString → Option CInt) (dlg : CTlPrizeSenderDlg) :
    Ui CTlPrizeSenderDlg := do
  let mAppConfig ← CAppConfig.loadFromFile appConfigPath
  let prize := mAppConfig.mPrizeConfig
  let dlg := { dlg with
    mAppConfig, mUsername := prize.mUsername, mWorld := prize.mWorld,
    mCharguid := prize.mCharguid, mItem := prize.mItem, mCount := prize.mCount }
  let (_, dlg) ← updateData (doDataExchange ddxInt .show) dlg
  pure dlg

def onShowSettingDlg (ddxInt : WString → Option CInt) (presses : List Controls)
    (this : CTlPrizeSenderDlg) : Ui CTlPrizeSenderDlg := do
  let db := this.mAppConfig.mDbConfig
  let dlg : CDatabaseSettingDlg :=
    { mHost := db.mHost, mPort := db.mPort.setWidth 32, mName := db.mName,
      mUsername := db.mUsername, mPassword := db.mPassword }
  let (idOk, dlg) ← dlg.doModal ddxInt presses
  if idOk then
    let mDbConfig : CAppConfigDb :=
      { mHost := dlg.mHost, mPort := dlg.mPort.setWidth 16, mName := dlg.mName,
        mUsername := dlg.mUsername, mPassword := dlg.mPassword }
    pure { this with mAppConfig := { this.mAppConfig with mDbConfig } }
  else
    pure this

def onDestroy (this : CTlPrizeSenderDlg) : Ui Unit :=
  this.mAppConfig.saveToFile appConfigPath

/-- Where the exception's text is appended to a `CString` it is decoded by the
system code page. -/
def onSendBnClicked (ddxInt : WString → Option CInt) (cp : CodePage UInt16 UInt8)
    (controls : Controls) (this : CTlPrizeSenderDlg) : Ui CTlPrizeSenderDlg := do
  let (accepted, this) ← updateData (doDataExchange ddxInt (.save controls)) this
  if !accepted then
    return this
  let mPrizeConfig : CAppConfigPrize :=
    { mUsername := this.mUsername, mWorld := this.mWorld, mCharguid := this.mCharguid,
      mItem := this.mItem, mCount := this.mCount }
  let this := { this with mAppConfig := { this.mAppConfig with mPrizeConfig } }
  let btnText ← Ui.call .getWindowText
  Ui.call (.enableWindow false)
  Ui.call (.setWindowText (wide "发放中..."))
  let result ← Ui.call (.processSendPrize this.mAppConfig.mDbConfig this.mUsername this.mWorld
    this.mCharguid this.mItem this.mCount)
  if let .error what := result then
    let errMessage := wide "发送活动奖励失败: " ++ cp.decode (cString what)
    Ui.call (.messageBox errMessage (wide "出错了") .stop)
  Ui.call (.enableWindow true)
  Ui.call (.setWindowText btnText.text)
  if let .ok _ := result then
    Ui.call (.messageBox (wide "发送活动奖励成功") (wide "提示") .information)
  return this

/-- What the operator may do in the main window. -/
inductive Action where
  | showSetting (presses : List Controls)
  | send (controls : Controls)
  | enter (controls : Controls)

/-- The actions one after the other; Enter is `CDialog::OnOK`, which closes the
dialog when the form is accepted. -/
def play (ddxInt : WString → Option CInt) (cp : CodePage UInt16 UInt8) :
    List Action → CTlPrizeSenderDlg → Ui CTlPrizeSenderDlg
  | [], this => pure this
  | .showSetting presses :: actions, this => do
    let this ← this.onShowSettingDlg ddxInt presses
    play ddxInt cp actions this
  | .send controls :: actions, this => do
    let this ← this.onSendBnClicked ddxInt cp controls
    play ddxInt cp actions this
  | .enter controls :: actions, this => do
    let (accepted, this) ← updateData (doDataExchange ddxInt (.save controls)) this
    if accepted then
      pure this
    else
      play ddxInt cp actions this

end CTlPrizeSenderDlg

/-- One start of the program, from `OnInitDialog` to `OnDestroy`. -/
def session (ddxInt : WString → Option CInt) (cp : CodePage UInt16 UInt8)
    (actions : List CTlPrizeSenderDlg.Action) : Ui Unit := do
  let dlg ← CTlPrizeSenderDlg.onInitDialog ddxInt {}
  let dlg ← dlg.play ddxInt cp actions
  dlg.onDestroy

/-! A session once the configuration has been loaded. -/

/-- The main dialog with a configuration that has been loaded. -/
def CAppConfig.dialog (mAppConfig : CAppConfig) : CTlPrizeSenderDlg :=
  let prize := mAppConfig.mPrizeConfig
  { mAppConfig, mUsername := prize.mUsername, mWorld := prize.mWorld,
    mCharguid := prize.mCharguid, mItem := prize.mItem, mCount := prize.mCount }

def sessionFrom (ddxInt : WString → Option CInt) (cp : CodePage UInt16 UInt8)
    (actions : List CTlPrizeSenderDlg.Action) (mAppConfig : CAppConfig) : Ui Unit := do
  let (_, dlg) ← updateData (CTlPrizeSenderDlg.doDataExchange ddxInt .show) mAppConfig.dialog
  let dlg ← dlg.play ddxInt cp actions
  dlg.onDestroy

theorem session_eq {ddxInt : WString → Option CInt} {cp : CodePage UInt16 UInt8}
    (actions : List CTlPrizeSenderDlg.Action) : session ddxInt cp actions =
      CAppConfig.loadFromFile CTlPrizeSenderDlg.appConfigPath >>= sessionFrom ddxInt cp actions :=
  rfl

end PrizeSender
