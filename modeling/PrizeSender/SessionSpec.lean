import PrizeSender.Accept

namespace PrizeSender

open Prog CTlPrizeSenderDlg

/-- What a session does to the outside: a prize is sent, or a value is written
to the profile file. -/
inductive Act where
  | send (db : CAppConfigDb) (prize : CAppConfigPrize)
  | write (appName keyName : String) (value : WString) (fileName : String)
  deriving DecidableEq, Repr

def observe : UiEvent → Option Act
  | ⟨.processSendPrize db username world charguid item count, _⟩ =>
    some (.send db ⟨username, world, charguid, item, count⟩)
  | ⟨.writePrivateProfileString appName keyName value fileName, _⟩ =>
    some (.write appName keyName value fileName)
  | _ => none

/-- What the operator has confirmed: the settings `D` and the last prize `P`. -/
structure Confirmed where
  D : CAppConfigDb
  P : CAppConfigPrize
  deriving DecidableEq, Repr

namespace Confirmed

def play (ddxInt : WString → Option CInt) : List Action → Confirmed → List Act × Confirmed
  | [], c => ([], c)
  | .showSetting presses :: actions, c =>
    match presses.findSome? (acceptDb ddxInt) with
    | some D => play ddxInt actions { c with D }
    | none => play ddxInt actions c
  | .send controls :: actions, c =>
    match acceptPrize ddxInt controls with
    | some P =>
      let rest := play ddxInt actions { c with P }
      (.send c.D P :: rest.1, rest.2)
    | none => play ddxInt actions c
  | .enter controls :: actions, c =>
    match acceptPrize ddxInt controls with
    | some _ => ([], c)
    | none => play ddxInt actions c

def writes (c : Confirmed) : List Act := [
  .write "db" "host" c.D.mHost appConfigPath,
  .write "db" "port" (formatInt c.D.mPort.toNat) appConfigPath,
  .write "db" "name" c.D.mName appConfigPath,
  .write "db" "username" c.D.mUsername appConfigPath,
  .write "db" "password" c.D.mPassword appConfigPath,
  .write "prize" "username" c.P.mUsername appConfigPath,
  .write "prize" "world" (formatInt c.P.mWorld.toInt) appConfigPath,
  .write "prize" "charguid" (formatInt c.P.mCharguid.toInt) appConfigPath,
  .write "prize" "item" (formatInt c.P.mItem.toInt) appConfigPath,
  .write "prize" "count" (formatInt c.P.mCount.toInt) appConfigPath]

def session (ddxInt : WString → Option CInt) (actions : List Action) (c : Confirmed) : List Act :=
  (c.play ddxInt actions).1 ++ (c.play ddxInt actions).2.writes

end Confirmed

/-- The configuration of the dialog is what has been confirmed. -/
structure Simulates (dlg : CTlPrizeSenderDlg) (c : Confirmed) : Prop where
  db : dlg.mAppConfig.mDbConfig = c.D
  prize : dlg.mAppConfig.mPrizeConfig = c.P

variable {ddxInt : WString → Option CInt} {cp : CodePage UInt16 UInt8} {controls : Controls}
variable {dlg : CTlPrizeSenderDlg} {c : Confirmed} {m : List Act}

theorem updateData_prize_acts {Q : Bool × CTlPrizeSenderDlg → List Act → Unit → Prop}
    (hsome : ∀ P, acceptPrize ddxInt controls = some P → Q (true, dlg.withPrize P) m ())
    (hnone : acceptPrize ddxInt controls = none →
      ∀ dlg' : CTlPrizeSenderDlg, dlg'.mAppConfig = dlg.mAppConfig → Q (false, dlg') m ()) :
    (updateData (doDataExchange ddxInt (.save controls)) dlg).wp (monitor (collect observe))
      .alone Q m () := by
  cases ha : acceptPrize ddxInt controls with
  | some P =>
    rw [updateData_prize_some dlg ha]
    rintro ⟨⟩ _
    exact hsome P ha
  | none =>
    obtain ⟨dlg', hcfg, hup | ⟨prompt, icon, hup⟩⟩ := updateData_prize_none dlg ha
    · rw [hup]
      rintro ⟨⟩ _
      exact hnone ha dlg' hcfg
    · rw [hup]
      apply wp_call_monitor
      rintro r ⟨⟩ _
      simpa [collect, observe] using hnone ha dlg' hcfg

theorem wp_quiet {β : Type} {call : UiCall} {k : call.Reply → Ui β}
    {Q : β → List Act → Unit → Prop} (hq : ∀ r, observe ⟨call, r⟩ = none)
    (h : ∀ r, (k r).wp (monitor (collect observe)) .alone Q m ()) :
    (Ui.call call >>= k).wp (monitor (collect observe)) .alone Q m () := by
  apply wp_call_monitor
  intro r
  simpa [collect, hq] using h r

theorem wp_showTexts {β : Type} {k : Unit → Ui β} {Q : β → List Act → Unit → Prop}
    (ts : List (EditId × WString)) (h : (k ()).wp (monitor (collect observe)) .alone Q m ()) :
    (showTexts ts >>= k).wp (monitor (collect observe)) .alone Q m () := by
  induction ts with
  | nil => exact h
  | cons t ts ih => exact wp_quiet (fun _ => rfl) fun _ => ih

theorem doModal_acts {dlg : CDatabaseSettingDlg} {presses : List Controls}
    {Q : Bool × CDatabaseSettingDlg → List Act → Unit → Prop}
    (h : ∀ dlg', (∀ D, presses.findSome? (acceptDb ddxInt) = some D → dlg'.toDb = D) →
      Q ((presses.findSome? (acceptDb ddxInt)).isSome, dlg') m ()) :
    (dlg.doModal ddxInt presses).wp (monitor (collect observe)) .alone Q m () := by
  obtain ⟨dlg', hpress, hdb⟩ := pressOk_eq ddxInt presses dlg
  unfold CDatabaseSettingDlg.doModal
  rw [updateData_db_show]
  apply wp_bind (p := showTexts dlg.texts >>= fun _ => Pure.pure (true, dlg))
  apply wp_showTexts
  rintro ⟨⟩ ⟨⟩
  change (dlg.pressOk ddxInt presses).wp _ _ _ _ _
  rw [hpress]
  rintro ⟨⟩ _
  exact h dlg' hdb

theorem onShowSettingDlg_acts {presses : List Controls} {D : CAppConfigDb}
    (hs : Simulates dlg c) (hD : D = (presses.findSome? (acceptDb ddxInt)).getD c.D) :
    (dlg.onShowSettingDlg ddxInt presses).wp (monitor (collect observe)) .alone
      (fun dlg' m' _ => Simulates dlg' { c with D } ∧ m' = m) m () := by
  unfold onShowSettingDlg
  refine wp_bind ?_
  apply doModal_acts
  intro set hset
  cases hf : presses.findSome? (acceptDb ddxInt) with
  | some db =>
    rintro ⟨⟩ _
    refine ⟨⟨?_, hs.prize⟩, rfl⟩
    rw [hD, hf]
    exact hset db hf
  | none =>
    rintro ⟨⟩ _
    refine ⟨⟨?_, hs.prize⟩, rfl⟩
    rw [hD, hf]
    exact hs.db

theorem onSendBnClicked_rejected (hs : Simulates dlg c)
    (ha : acceptPrize ddxInt controls = none) :
    (dlg.onSendBnClicked ddxInt cp controls).wp (monitor (collect observe)) .alone
      (fun dlg' m' _ => Simulates dlg' c ∧ m' = m) m () := by
  unfold onSendBnClicked
  refine wp_bind ?_
  apply updateData_prize_acts
  · intro P hP
    rw [ha] at hP
    cases hP
  · rintro _ dlg' hcfg ⟨⟩ _
    exact ⟨⟨by rw [hcfg, hs.db], by rw [hcfg, hs.prize]⟩, rfl⟩

theorem reportSend_acts {btnText : LineText} {result : Except Bytes Unit} :
    (reportSend cp btnText result).wp (monitor (collect observe)) .alone
      (fun _ m' _ => m' = m) m () := by
  cases result with
  | error what =>
    refine wp_quiet (fun _ => rfl) fun _ => wp_quiet (fun _ => rfl) fun _ => ?_
    rintro ⟨⟩ _ _ ⟨⟩ _
    simp [monitor, collect, observe]
  | ok _ =>
    refine wp_quiet (fun _ => rfl) fun _ => wp_quiet (fun _ => rfl) fun _ => ?_
    rintro ⟨⟩ _ _ ⟨⟩ _
    simp [monitor, collect, observe]

theorem onSendBnClicked_acts {P : CAppConfigPrize} (hs : Simulates dlg c)
    (ha : acceptPrize ddxInt controls = some P) :
    (dlg.onSendBnClicked ddxInt cp controls).wp (monitor (collect observe)) .alone
      (fun dlg' m' _ => Simulates dlg' { c with P } ∧ m' = m ++ [Act.send c.D P]) m () := by
  rw [onSendBnClicked_accepted dlg ha]
  refine wp_quiet (fun _ => rfl) fun btnText => wp_quiet (fun _ => rfl) fun _ =>
    wp_quiet (fun _ => rfl) fun _ => wp_call_monitor fun result => ?_
  have hact : collect observe m ⟨.processSendPrize dlg.mAppConfig.mDbConfig P.mUsername P.mWorld
      P.mCharguid P.mItem P.mCount, result⟩ = m ++ [Act.send c.D P] := by
    simp [collect, observe, hs.db]
  rw [hact]
  refine wp_bind ?_
  refine wp_mono reportSend_acts ?_
  rintro _ m' ⟨⟩ rfl ⟨⟩ _
  exact ⟨⟨hs.db, rfl⟩, rfl⟩

/-- Every action keeps the simulation and leaves the acts of the specification. -/
theorem play_acts (actions : List Action) (hs : Simulates dlg c) :
    (dlg.play ddxInt cp actions).wp (monitor (collect observe)) .alone
      (fun dlg' m' _ => Simulates dlg' (c.play ddxInt actions).2 ∧
        m' = m ++ (c.play ddxInt actions).1) m () := by
  induction actions generalizing dlg c m with
  | nil =>
    rintro ⟨⟩ _
    exact ⟨hs, by simp [Confirmed.play]⟩
  | cons action actions ih =>
    cases action with
    | showSetting presses =>
      rw [CTlPrizeSenderDlg.play]
      refine wp_bind ?_
      refine wp_mono (onShowSettingDlg_acts hs rfl) ?_
      rintro dlg' m' ⟨⟩ ⟨hs', rfl⟩
      have hplay : c.play ddxInt (.showSetting presses :: actions) =
          Confirmed.play ddxInt actions
            { c with D := (presses.findSome? (acceptDb ddxInt)).getD c.D } := by
        rw [Confirmed.play]
        cases presses.findSome? (acceptDb ddxInt) <;> rfl
      rw [hplay]
      exact ih hs'
    | send controls =>
      rw [CTlPrizeSenderDlg.play]
      refine wp_bind ?_
      cases ha : acceptPrize ddxInt controls with
      | some P =>
        refine wp_mono (onSendBnClicked_acts hs ha) ?_
        rintro dlg' m' ⟨⟩ ⟨hs', rfl⟩
        refine wp_mono (ih hs') ?_
        rintro dlg'' m'' ⟨⟩ ⟨hs'', rfl⟩
        simpa [Confirmed.play, ha] using hs''
      | none =>
        refine wp_mono (onSendBnClicked_rejected hs ha) ?_
        rintro dlg' m' ⟨⟩ ⟨hs', rfl⟩
        simpa [Confirmed.play, ha] using ih hs'
    | enter controls =>
      rw [CTlPrizeSenderDlg.play]
      refine wp_bind ?_
      apply updateData_prize_acts
      · rintro P ha ⟨⟩ _
        simpa [Confirmed.play, ha] using ⟨hs.db, hs.prize⟩
      · intro ha dlg' hcfg
        have hs' : Simulates dlg' c := ⟨by rw [hcfg, hs.db], by rw [hcfg, hs.prize]⟩
        simpa [Confirmed.play, ha] using ih hs'

theorem writeSettings_acts (filePath : String) (ps : List ((String × String) × WString)) :
    (writeSettings filePath ps).wp (monitor (collect observe)) .alone
      (fun _ m' _ => m' = m ++ ps.map fun p => Act.write p.1.1 p.1.2 p.2 filePath) m () := by
  induction ps generalizing m with
  | nil => exact fun _ _ => (List.append_nil m).symm
  | cons p ps ih =>
    apply wp_call_monitor
    intro u
    have hact : collect observe m
        ⟨.writePrivateProfileString p.1.1 p.1.2 p.2 filePath, u⟩ =
          m ++ [Act.write p.1.1 p.1.2 p.2 filePath] := rfl
    rw [hact]
    refine wp_mono ih ?_
    rintro _ m' ⟨⟩ rfl
    rw [List.append_assoc]
    rfl

theorem onDestroy_acts (hs : Simulates dlg c) :
    dlg.onDestroy.wp (monitor (collect observe)) .alone
      (fun _ m' _ => m' = m ++ c.writes) m () := by
  have hwrites : c.writes = (settings dlg.mAppConfig).map
      fun p => .write p.1.1 p.1.2 p.2 appConfigPath := by
    rw [Confirmed.writes, settings, hs.db, hs.prize]
    rfl
  rw [onDestroy, saveToFile_eq, hwrites]
  exact writeSettings_acts appConfigPath (settings dlg.mAppConfig)

theorem onInitDialog_acts (ddxInt : WString → Option CInt) (o : Nat → (c : UiCall) → c.Reply) :
    ((onInitDialog ddxInt {}).trace o).1.filterMap observe = [] ∧
    ((onInitDialog ddxInt {}).trace o).2.mAppConfig =
      ((CAppConfig.loadFromFile appConfigPath).trace o).2 :=
  ⟨rfl, rfl⟩

theorem session_acts (actions : List Action) (o : Nat → (c : UiCall) → c.Reply)
    {loaded : CAppConfig} (hl : ((CAppConfig.loadFromFile appConfigPath).trace o).2 = loaded) :
    ((session ddxInt cp actions).trace o).1.filterMap observe =
      Confirmed.session ddxInt actions ⟨loaded.mDbConfig, loaded.mPrizeConfig⟩ := by
  obtain ⟨hquiet, hloaded⟩ := onInitDialog_acts ddxInt o
  unfold session
  rw [trace_bind, List.filterMap_append, hquiet, List.nil_append]
  generalize ((onInitDialog ddxInt {}).trace o).2 = dlg at hloaded ⊢
  have hs : Simulates dlg ⟨dlg.mAppConfig.mDbConfig, dlg.mAppConfig.mPrizeConfig⟩ := ⟨rfl, rfl⟩
  have hwp : (dlg.play ddxInt cp actions >>= onDestroy).wp (monitor (collect observe)) .alone
      (fun _ m' _ => m' = Confirmed.session ddxInt actions
        ⟨dlg.mAppConfig.mDbConfig, dlg.mAppConfig.mPrizeConfig⟩) [] () := by
    refine wp_bind ?_
    refine wp_mono (play_acts actions hs) ?_
    rintro dlg' m' ⟨⟩ ⟨hs', rfl⟩
    exact onDestroy_acts hs'
  have h := trace_of_wp hwp
  simp only [foldl_collect, List.nil_append] at h
  rw [← hl, ← hloaded]
  exact h _

/-- The sends of a session and then the values it writes are those of the
two-variable specification, started with what was loaded. -/
theorem session_refines (ddxInt : WString → Option CInt) (cp : CodePage UInt16 UInt8)
    (actions : List Action) (o : Nat → (c : UiCall) → c.Reply) :
    let loaded := ((CAppConfig.loadFromFile appConfigPath).trace o).2
    let spec := Confirmed.play ddxInt actions ⟨loaded.mDbConfig, loaded.mPrizeConfig⟩
    ((session ddxInt cp actions).trace o).1.filterMap observe = spec.1 ++ spec.2.writes :=
  session_acts actions o rfl

end PrizeSender
