import PrizeSender.Lifetime
import PrizeSender.Delivery

namespace PrizeSender

open Prog CTlPrizeSenderDlg

variable {cp : CodePage UInt16 UInt8} {ddxInt : WString → Option CInt} {controls : Controls}

def Act.prize? : Act → Option CAppConfigPrize
  | .send _ prize => some prize
  | .write .. => none

def UiCall.message? : UiCall → Option (WString × MbIcon)
  | .afxMessageBox prompt icon => some (prompt, icon)
  | .messageBox text _ icon => some (text, icon)
  | _ => none

/-- What a message says of a prize that has been sent; the warning about the
form says nothing. -/
def verdict? (message : WString × MbIcon) : Option Bool :=
  if message.2 = .exclamation then none else some (message = successMessage)

def told? (e : UiEvent) : Option Bool := e.1.message?.bind verdict?

/-- A prize that is sent, with the result of `processSendPrize`. -/
def sent? : UiEvent → Option (CAppConfigPrize × Except Bytes Unit)
  | ⟨.processSendPrize _ username world charguid item count, result⟩ =>
    some (⟨username, world, charguid, item, count⟩, result)
  | _ => none

theorem sent_prize (e : UiEvent) : (sent? e).map Prod.fst = (observe e).bind Act.prize? := by
  obtain ⟨c, r⟩ := e
  cases c <;> rfl

/-! What the operator is told is what has become of the sends. -/

def succeeded (x : CAppConfigPrize × Except Bytes Unit) : Bool := x.2 = .ok ()

/-- Each send is followed by one message, which tells its result. -/
def Tells {α : Type} (p : Ui α) : Prop :=
  ∀ o, (p.trace o).1.filterMap told? =
    ((p.trace o).1.filterMap sent?).map succeeded

section

variable {α β : Type} {p : Ui α} {f : α → Ui β}

theorem tells_bind (hp : Tells p) (hf : ∀ a, Tells (f a)) : Tells (p >>= f) := by
  intro o
  simp only [trace_bind, List.filterMap_append, List.map_append, hp o, hf (p.trace o).2 _]

/-- Calls that neither send a prize nor tell of one. -/
def Quiet : UiCall → Prop
  | .processSendPrize .. => False
  | .messageBox .. => False
  | .afxMessageBox _ icon => icon = .exclamation
  | _ => True

theorem told_quiet {c : UiCall} (hc : Quiet c) (r : c.Reply) :
    told? ⟨c, r⟩ = none ∧ sent? ⟨c, r⟩ = none := by
  cases c with
  | processSendPrize => exact hc.elim
  | messageBox => exact hc.elim
  | afxMessageBox prompt icon =>
    obtain rfl : icon = .exclamation := hc
    exact ⟨rfl, rfl⟩
  | _ => exact ⟨rfl, rfl⟩

theorem tells_of_quiet (h : p.Calls Quiet) : Tells p := by
  intro o
  induction p generalizing o with
  | pure a => rfl
  | call c k ih =>
    obtain ⟨htold, hsent⟩ := told_quiet h.1 (o 0 c)
    have hrest := ih (o 0 c) (h.2 (o 0 c)) fun n => o (n + 1)
    simpa only [trace, List.filterMap_cons, htold, hsent] using hrest

end

/-- Calls that leave the send button and its messages alone. -/
def UiCall.Plain : UiCall → Prop
  | .processSendPrize .. => False
  | .messageBox .. => False
  | .afxMessageBox _ icon => icon = .exclamation
  | .getWindowText => False
  | .setWindowText _ => False
  | .enableWindow _ => False
  | _ => True

theorem UiCall.Plain.quiet {c : UiCall} (hc : c.Plain) : Quiet c := by
  cases c with
  | processSendPrize => exact hc
  | messageBox => exact hc
  | afxMessageBox => exact hc
  | _ => trivial

theorem tells_of_plain {α : Type} {p : Ui α} (h : p.Calls UiCall.Plain) : Tells p :=
  tells_of_quiet (calls_mono h fun _ hc => hc.quiet)

theorem onDestroy_plain (dlg : CTlPrizeSenderDlg) : dlg.onDestroy.Calls UiCall.Plain := by
  rw [onDestroy, saveToFile_eq]
  exact makes_calls (writeSettings_makes _ _) (List.forall_mem_map.mpr fun _ _ => trivial)

theorem showTexts_plain (ts : List (EditId × WString)) : (showTexts ts).Calls UiCall.Plain :=
  makes_calls (showTexts_makes ts) (List.forall_mem_map.mpr fun _ _ => trivial)

theorem updateData_show_plain (dlg : CTlPrizeSenderDlg) :
    (updateData (doDataExchange ddxInt .show) dlg).Calls UiCall.Plain := by
  rw [updateData_show]
  exact calls_bind (showTexts_plain dlg.texts) fun _ => calls_pure

section

variable {δ : Type} {d : δ} {P : UiCall → Prop}

theorem calls_exec_bind {x : Exchange δ Unit} {k : Unit → Exchange δ Unit}
    (hx : (x.exec d).Calls P) (hk : ∀ d, ((k ()).exec d).Calls P) : ((x >>= k).exec d).Calls P := by
  apply calls_bind hx
  rintro ⟨r, d'⟩
  cases r with
  | ok _ => exact hk d'
  | error _ => exact calls_pure

theorem calls_ddxText {id : EditId} {member : δ → WString} {assign : WString → δ → δ} :
    ((ddxText (.save controls) id member assign).exec d).Calls P := calls_pure

theorem calls_ddxTextInt {id : EditId} {member : δ → CInt} {assign : CInt → δ → δ} :
    ((ddxTextInt ddxInt (.save controls) id member assign).exec d).Calls P := by
  unfold ddxTextInt
  dsimp only
  split
  next => exact calls_pure
  next => exact calls_pure

theorem calls_ddvMinMaxInt {value : CInt} {minVal maxVal : Int} :
    ((ddvMinMaxInt (.save controls) value minVal maxVal).exec d).Calls P := by
  unfold ddvMinMaxInt
  dsimp only
  split
  next => exact calls_pure
  next => exact calls_pure

end

theorem updateData_save_plain (ddxInt : WString → Option CInt) (controls : Controls)
    (dlg : CTlPrizeSenderDlg) :
    (updateData (doDataExchange ddxInt (.save controls)) dlg).Calls UiCall.Plain := by
  apply calls_bind
  · refine calls_exec_bind calls_ddxText fun _ => calls_exec_bind calls_ddxTextInt fun _ =>
      calls_exec_bind calls_ddxTextInt fun _ => calls_exec_bind calls_ddxTextInt fun _ =>
        calls_exec_bind calls_ddxTextInt fun dlg => ?_
    rw [exec_get, exec_ddvUsernameNotEmpty]
    split
    next => exact calls_perform rfl fun _ => calls_pure
    next =>
      rw [exec_get]
      refine calls_exec_bind calls_ddvMinMaxInt fun dlg => ?_
      rw [exec_get]
      exact calls_ddvMinMaxInt
  · rintro ⟨r, dlg'⟩
    cases r <;> exact calls_pure

theorem onShowSettingDlg_plain (presses : List Controls) (dlg : CTlPrizeSenderDlg) :
    (dlg.onShowSettingDlg ddxInt presses).Calls UiCall.Plain := by
  unfold onShowSettingDlg CDatabaseSettingDlg.doModal
  apply calls_bind
  · apply calls_bind
    · rw [updateData_db_show]
      exact calls_bind (showTexts_plain _) fun _ => calls_pure
    · rintro ⟨_, dlg'⟩
      obtain ⟨dlg'', hpress, _⟩ := pressOk_eq ddxInt presses dlg'
      dsimp only
      rw [hpress]
      exact calls_pure
  · rintro ⟨idOk, dlg'⟩
    cases idOk <;> exact calls_pure

theorem verdict_stop {text : WString} : verdict? (text, .stop) = some false := by
  simp [verdict?, successMessage]

/-- Each result of `processSendPrize` is told by the message after it. -/
theorem sendThenReport_tells {db : CAppConfigDb} {prize : CAppConfigPrize} {btnText : LineText}
    {dlg : CTlPrizeSenderDlg} : Tells (do
      let result ← Ui.call (.processSendPrize db prize.mUsername prize.mWorld prize.mCharguid
        prize.mItem prize.mCount)
      reportSend cp btnText result
      Pure.pure dlg) := by
  intro o
  let result : Except Bytes Unit := o 0 (.processSendPrize db prize.mUsername prize.mWorld
    prize.mCharguid prize.mItem prize.mCount)
  have hafter : ∀ r : Except Bytes Unit,
      let rest := (reportSend cp btnText r >>= fun _ => Pure.pure dlg).trace (fun n => o (n + 1))
      rest.1.filterMap told? = [decide (r = .ok ())] ∧ rest.1.filterMap sent? = [] := by
    intro r
    cases r with
    | ok _ => exact ⟨rfl, rfl⟩
    | error what => exact ⟨congrArg Option.toList verdict_stop, rfl⟩
  obtain ⟨htold, hsent⟩ := hafter result
  have hone := congrArg (List.cons (prize, result)) hsent
  exact htold.trans (congrArg (List.map succeeded) hone).symm

theorem onSendBnClicked_tells (dlg : CTlPrizeSenderDlg) :
    Tells (dlg.onSendBnClicked ddxInt cp controls) := by
  cases ha : acceptPrize ddxInt controls with
  | some prize =>
    rw [onSendBnClicked_accepted dlg ha]
    refine tells_bind (tells_of_quiet ⟨trivial, fun _ => calls_pure⟩) fun _ => ?_
    refine tells_bind (tells_of_quiet ⟨trivial, fun _ => calls_pure⟩) fun _ => ?_
    refine tells_bind (tells_of_quiet ⟨trivial, fun _ => calls_pure⟩) fun _ => ?_
    exact sendThenReport_tells
  | none =>
    have hplain := updateData_save_plain ddxInt controls dlg
    apply tells_of_plain
    obtain ⟨dlg', _, hup | ⟨prompt, icon, hup⟩⟩ := updateData_prize_none dlg ha
    · unfold onSendBnClicked
      rw [hup]
      exact calls_pure
    · unfold onSendBnClicked
      rw [hup] at hplain ⊢
      exact calls_perform hplain.1 fun _ => calls_pure

theorem play_tells (actions : List Action) (dlg : CTlPrizeSenderDlg) :
    Tells (dlg.play ddxInt cp actions) := by
  induction actions generalizing dlg with
  | nil => exact tells_of_quiet calls_pure
  | cons action actions ih =>
    cases action with
    | showSetting presses =>
      exact tells_bind (tells_of_plain (onShowSettingDlg_plain presses dlg)) ih
    | send controls => exact tells_bind (onSendBnClicked_tells dlg) ih
    | enter controls =>
      apply tells_bind (tells_of_plain (updateData_save_plain _ _ dlg))
      rintro ⟨accepted, dlg'⟩
      cases accepted with
      | true => exact tells_of_quiet calls_pure
      | false => exact ih dlg'

theorem sessionFrom_tells (actions : List Action) (config : CAppConfig) :
    Tells (sessionFrom ddxInt cp actions config) := by
  apply tells_bind (tells_of_plain (updateData_show_plain _))
  rintro ⟨accepted, dlg⟩
  apply tells_bind (play_tells actions dlg)
  intro dlg
  exact tells_of_plain (onDestroy_plain dlg)

theorem sessionFrom_acts (actions : List Action) (config : CAppConfig) (o : Nat → (c : UiCall) → c.Reply) :
    ((sessionFrom ddxInt cp actions config).trace o).1.filterMap observe =
      Confirmed.session ddxInt actions config.confirmed := by
  have hs : Simulates config.dialog config.confirmed := ⟨rfl, rfl⟩
  have hwp : (sessionFrom ddxInt cp actions config).wp (monitor (collect observe)) .alone
      (fun _ m' _ => m' = Confirmed.session ddxInt actions config.confirmed) [] () := by
    rw [sessionFrom, updateData_show]
    apply wp_bind (p := showTexts config.dialog.texts >>= fun _ => Pure.pure (true, config.dialog))
    apply wp_showTexts
    rintro ⟨⟩ ⟨⟩
    refine wp_bind ?_
    refine wp_mono (play_acts actions hs) ?_
    rintro dlg' m' ⟨⟩ ⟨hs', rfl⟩
    exact onDestroy_acts hs'
  have h := trace_of_wp hwp o
  rwa [foldl_collect, List.nil_append] at h

end PrizeSender
