import PrizeSender.Dialogs

namespace PrizeSender

/-! The forms the two dialogs accept, and what they stand for. -/

/-- The prize form: a name, and an item and a count from 1 on. -/
def acceptPrize (ddxInt : WString → Option CInt) (controls : Controls) :
    Option CAppConfigPrize := do
  let mWorld ← ddxInt (controls .idcEdit2).text
  let mCharguid ← ddxInt (controls .idcEdit3).text
  let mItem ← ddxInt (controls .idcEdit4).text
  let mCount ← ddxInt (controls .idcEdit5).text
  if (controls .idcEdit1).text ≠ [] ∧ 1 ≤ mItem.toInt ∧ 1 ≤ mCount.toInt then
    some { mUsername := (controls .idcEdit1).text, mWorld, mCharguid, mItem, mCount }
  else
    none

/-- One of item 20101001 for the character 1 of the account admin. -/
def prizeForm : Controls
  | .idcEdit1 => ⟨wide "admin", by decide⟩
  | .idcEdit2 => ⟨wide "0", by decide⟩
  | .idcEdit3 => ⟨wide "1", by decide⟩
  | .idcEdit4 => ⟨wide "20101001", by decide⟩
  | .idcEdit5 => ⟨wide "1", by decide⟩

example : acceptPrize decimalInt prizeForm = some ⟨wide "admin", 0, 1, 20101001, 1⟩ := by decide

/-- The database form: a port from 1 to 65535. -/
def acceptDb (ddxInt : WString → Option CInt) (controls : Controls) : Option CAppConfigDb := do
  let port ← ddxInt (controls .idcEdit2).text
  if 1 ≤ port.toInt ∧ port.toInt ≤ 65535 then
    some { mHost := (controls .idcEdit1).text, mPort := port.setWidth 16,
           mName := (controls .idcEdit5).text, mUsername := (controls .idcEdit3).text,
           mPassword := (controls .idcEdit4).text }
  else
    none

variable {ddxInt : WString → Option CInt} {controls : Controls}

theorem toInt_le_intMax (n : CInt) : n.toInt ≤ intMax := by
  have := BitVec.toInt_lt (x := n)
  simp [intMax] at *
  omega

theorem acceptPrize_some {prize : CAppConfigPrize} (h : acceptPrize ddxInt controls = some prize) :
    prize.mUsername = (controls .idcEdit1).text ∧ prize.mUsername ≠ [] ∧
      1 ≤ prize.mItem.toInt ∧ 1 ≤ prize.mCount.toInt := by
  simp only [acceptPrize, Option.bind_eq_bind, Option.bind_eq_some_iff] at h
  obtain ⟨w, _, g, _, i, _, n, _, h⟩ := h
  split at h
  next hc =>
    cases h
    exact ⟨rfl, hc⟩
  next => cases h

def CTlPrizeSenderDlg.withPrize (dlg : CTlPrizeSenderDlg) (prize : CAppConfigPrize) :
    CTlPrizeSenderDlg :=
  { dlg with
    mUsername := prize.mUsername, mWorld := prize.mWorld, mCharguid := prize.mCharguid,
    mItem := prize.mItem, mCount := prize.mCount }

theorem updateData_prize_some {prize : CAppConfigPrize} (dlg : CTlPrizeSenderDlg)
    (h : acceptPrize ddxInt controls = some prize) :
    updateData (CTlPrizeSenderDlg.doDataExchange ddxInt (.save controls)) dlg =
      pure (true, dlg.withPrize prize) := by
  simp only [acceptPrize, Option.bind_eq_bind, Option.bind_eq_some_iff] at h
  obtain ⟨w, hw, g, hg, i, hi, n, hn, h⟩ := h
  split at h
  next hc =>
    cases h
    apply updateData_ok
    unfold CTlPrizeSenderDlg.doDataExchange
    simp only [exec_ddxText, exec_ddxTextInt_some hw, exec_ddxTextInt_some hg,
      exec_ddxTextInt_some hi, exec_ddxTextInt_some hn, exec_get,
      CTlPrizeSenderDlg.exec_ddvUsernameNotEmpty, exec_ddvMinMaxInt, exec_ddvMinMaxInt_last,
      if_neg hc.1, hc.2.1, hc.2.2, toInt_le_intMax, and_self, if_true]
    rfl
  next => cases h

def CTlPrizeSenderDlg.recorded (dlg : CTlPrizeSenderDlg) (prize : CAppConfigPrize) :
    CTlPrizeSenderDlg :=
  { dlg.withPrize prize with mAppConfig := { dlg.mAppConfig with mPrizeConfig := prize } }

/-- What `OnSendBnClicked` shows after the call of `processSendPrize`. -/
def reportSend (cp : CodePage UInt16 UInt8) (btnText : LineText) : Except Bytes Unit → Ui Unit
  | .error what => do
    let errMessage := wide "发送活动奖励失败: " ++ cp.decode (cString what)
    Ui.call (.messageBox errMessage (wide "出错了") .stop)
    Ui.call (.enableWindow true)
    Ui.call (.setWindowText btnText.text)
  | .ok _ => do
    Ui.call (.enableWindow true)
    Ui.call (.setWindowText btnText.text)
    Ui.call (.messageBox (wide "发送活动奖励成功") (wide "提示") .information)

theorem onSendBnClicked_accepted {cp : CodePage UInt16 UInt8} {prize : CAppConfigPrize}
    (dlg : CTlPrizeSenderDlg) (h : acceptPrize ddxInt controls = some prize) :
    dlg.onSendBnClicked ddxInt cp controls = (do
      let btnText ← Ui.call .getWindowText
      Ui.call (.enableWindow false)
      Ui.call (.setWindowText (wide "发放中..."))
      let result ← Ui.call (.processSendPrize dlg.mAppConfig.mDbConfig prize.mUsername
        prize.mWorld prize.mCharguid prize.mItem prize.mCount)
      reportSend cp btnText result
      pure (dlg.recorded prize)) := by
  unfold CTlPrizeSenderDlg.onSendBnClicked
  rw [updateData_prize_some dlg h, Prog.pure_then]
  refine bind_congr fun btnText => ?_
  refine bind_congr fun _ => ?_
  refine bind_congr fun _ => ?_
  refine bind_congr fun result => ?_
  cases result with
  | error what => rfl
  | ok _ => rfl

/-- A rejected form may leave some of its values in the members, but nothing
in the configuration. -/
theorem updateData_prize_none (dlg : CTlPrizeSenderDlg)
    (h : acceptPrize ddxInt controls = none) :
    ∃ dlg' : CTlPrizeSenderDlg, dlg'.mAppConfig = dlg.mAppConfig ∧
      (updateData (CTlPrizeSenderDlg.doDataExchange ddxInt (.save controls)) dlg =
        pure (false, dlg') ∨
      ∃ prompt icon, updateData (CTlPrizeSenderDlg.doDataExchange ddxInt (.save controls)) dlg =
        Ui.call (.afxMessageBox prompt icon) >>= fun _ => pure (false, dlg')) := by
  unfold updateData CTlPrizeSenderDlg.doDataExchange
  simp only [exec_ddxText]
  cases hw : ddxInt (controls .idcEdit2).text with
  | none =>
    simp only [exec_ddxTextInt_none hw]
    refine ⟨_, ?_, Or.inl rfl⟩
    rfl
  | some w =>
  simp only [exec_ddxTextInt_some hw]
  cases hg : ddxInt (controls .idcEdit3).text with
  | none =>
    simp only [exec_ddxTextInt_none hg]
    refine ⟨_, ?_, Or.inl rfl⟩
    rfl
  | some g =>
  simp only [exec_ddxTextInt_some hg]
  cases hi : ddxInt (controls .idcEdit4).text with
  | none =>
    simp only [exec_ddxTextInt_none hi]
    refine ⟨_, ?_, Or.inl rfl⟩
    rfl
  | some i =>
  simp only [exec_ddxTextInt_some hi]
  cases hn : ddxInt (controls .idcEdit5).text with
  | none =>
    simp only [exec_ddxTextInt_none hn]
    refine ⟨_, ?_, Or.inl rfl⟩
    rfl
  | some n =>
  simp only [exec_ddxTextInt_some hn, exec_get, CTlPrizeSenderDlg.exec_ddvUsernameNotEmpty,
    exec_ddvMinMaxInt, exec_ddvMinMaxInt_last, toInt_le_intMax, and_true]
  split
  next =>
    refine ⟨_, ?_, Or.inr ⟨_, _, rfl⟩⟩
    rfl
  next hu =>
    split
    next hi1 =>
      split
      next hn1 => simp [acceptPrize, hw, hg, hi, hn, hu, hi1, hn1] at h
      next =>
        refine ⟨_, ?_, Or.inl rfl⟩
        rfl
    next =>
      refine ⟨_, ?_, Or.inl rfl⟩
      rfl

/-- The settings `OnShowSettingDlg` copies from the settings dialog. -/
def CDatabaseSettingDlg.toDb (dlg : CDatabaseSettingDlg) : CAppConfigDb :=
  { mHost := dlg.mHost, mPort := dlg.mPort.setWidth 16, mName := dlg.mName,
    mUsername := dlg.mUsername, mPassword := dlg.mPassword }

theorem updateData_db_some {db : CAppConfigDb} (dlg : CDatabaseSettingDlg)
    (h : acceptDb ddxInt controls = some db) :
    ∃ dlg' : CDatabaseSettingDlg, dlg'.toDb = db ∧
      updateData (CDatabaseSettingDlg.doDataExchange ddxInt (.save controls)) dlg =
        pure (true, dlg') := by
  simp only [acceptDb, Option.bind_eq_bind, Option.bind_eq_some_iff] at h
  obtain ⟨port, hport, h⟩ := h
  split at h
  next hc =>
    cases h
    unfold updateData CDatabaseSettingDlg.doDataExchange
    simp only [exec_ddxText, exec_ddxText_last, exec_ddxTextInt_some hport, exec_get,
      exec_ddvMinMaxInt, if_pos hc]
    refine ⟨_, ?_, rfl⟩
    rfl
  next => cases h

theorem updateData_db_none (dlg : CDatabaseSettingDlg) (h : acceptDb ddxInt controls = none) :
    ∃ dlg' : CDatabaseSettingDlg,
      updateData (CDatabaseSettingDlg.doDataExchange ddxInt (.save controls)) dlg =
        pure (false, dlg') := by
  unfold updateData CDatabaseSettingDlg.doDataExchange
  simp only [exec_ddxText]
  cases hport : ddxInt (controls .idcEdit2).text with
  | none =>
    simp only [exec_ddxTextInt_none hport]
    exact ⟨_, rfl⟩
  | some port =>
    simp only [exec_ddxTextInt_some hport, exec_get, exec_ddvMinMaxInt]
    split
    next hc => simp [acceptDb, hport, hc] at h
    next => exact ⟨_, rfl⟩

/-- The settings dialog is closed by the first OK whose form is accepted. -/
theorem pressOk_eq (ddxInt : WString → Option CInt) (presses : List Controls)
    (dlg : CDatabaseSettingDlg) :
    ∃ dlg' : CDatabaseSettingDlg, dlg.pressOk ddxInt presses =
        pure ((presses.findSome? (acceptDb ddxInt)).isSome, dlg') ∧
      ∀ db, presses.findSome? (acceptDb ddxInt) = some db → dlg'.toDb = db := by
  induction presses generalizing dlg with
  | nil => exact ⟨dlg, rfl, by simp⟩
  | cons controls presses ih =>
    unfold CDatabaseSettingDlg.pressOk
    cases ha : acceptDb ddxInt controls with
    | some db =>
      obtain ⟨dlg', hdb, hup⟩ := updateData_db_some dlg ha
      rw [hup]
      refine ⟨dlg', ?_, ?_⟩
      · simp only [List.findSome?_cons, ha]
        rfl
      · intro db' h
        simp only [List.findSome?_cons, ha, Option.some.injEq] at h
        rw [hdb, h]
    | none =>
      obtain ⟨dlg', hup⟩ := updateData_db_none dlg ha
      obtain ⟨dlg'', hpress, hdb⟩ := ih dlg'
      rw [hup]
      refine ⟨dlg'', ?_, ?_⟩
      · simp only [List.findSome?_cons, ha]
        exact hpress
      · simpa only [List.findSome?_cons, ha] using hdb

end PrizeSender
