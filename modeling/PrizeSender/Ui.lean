import PrizeSender.Trace
import PrizeSender.Ini
import PrizeSender.Config

namespace PrizeSender

/-- No line break and no terminator. -/
def OneLine (s : WString) : Prop := ∀ u ∈ s, u ≠ 0 ∧ u ≠ 10 ∧ u ≠ 13

instance {s : WString} : Decidable (OneLine s) := List.decidableBAll _ s

/-- The text of a single-line edit control, or of a value of a profile file. -/
structure LineText where
  text : WString
  oneLine : OneLine text
  deriving DecidableEq, Repr

inductive EditId where
  | idcEdit1
  | idcEdit2
  | idcEdit3
  | idcEdit4
  | idcEdit5
  deriving DecidableEq, Repr

/-- What the edit controls of a dialog hold. -/
abbrev Controls := EditId → LineText

inductive MbIcon where
  | stop
  | information
  | exclamation
  deriving DecidableEq, Repr

/-- The calls the dialogs and the configuration make of Windows, of MFC and of
`dbAction.cpp`; the window calls are those of the send button. -/
inductive UiCall where
  | getPrivateProfileString (appName keyName : String) (default : WString) (size : Nat)
      (fileName : String)
  | getPrivateProfileInt (appName keyName : String) (default : CInt) (fileName : String)
  | writePrivateProfileString (appName keyName : String) (value : WString) (fileName : String)
  | setDlgItemText (id : EditId) (text : WString)
  | afxMessageBox (prompt : WString) (icon : MbIcon)
  | messageBox (text caption : WString) (icon : MbIcon)
  | getWindowText
  | setWindowText (text : WString)
  | enableWindow (enable : Bool)
  | processSendPrize (dbConfig : CAppConfigDb) (username : WString)
      (world charguid item count : CInt)
  deriving DecidableEq, Repr

abbrev UiCall.Reply : UiCall → Type
  | .getPrivateProfileString .. => LineText
  | .getPrivateProfileInt .. => BitVec 32
  | .writePrivateProfileString .. => Unit
  | .setDlgItemText .. => Unit
  | .afxMessageBox .. => Unit
  | .messageBox .. => Unit
  | .getWindowText => LineText
  | .setWindowText _ => Unit
  | .enableWindow _ => Unit
  | .processSendPrize .. => Except Bytes Unit

abbrev UiEvent := Prog.Event UiCall UiCall.Reply

abbrev Ui := Prog UiCall UiCall.Reply

abbrev Ui.call (c : UiCall) : Ui c.Reply := Prog.perform c

def getPrivateProfileString (appName keyName : String) (default : WString) (size : Nat)
    (fileName : String) : Ui LineText :=
  Ui.call (.getPrivateProfileString appName keyName default size fileName)

def getPrivateProfileInt (appName keyName : String) (default : CInt) (fileName : String) :
    Ui (BitVec 32) :=
  Ui.call (.getPrivateProfileInt appName keyName default fileName)

def writePrivateProfileString (appName keyName : String) (value : WString) (fileName : String) :
    Ui Unit :=
  Ui.call (.writePrivateProfileString appName keyName value fileName)

/-- Whether a `CDataExchange` saves what the controls hold or shows the
members in them. -/
inductive CDataExchange where
  | save (controls : Controls)
  | show

/-- Code that exchanges members of a dialog `δ` with its controls; `Fail`
leaves the members as they are at that point. -/
abbrev Exchange (δ : Type) := ExceptT Unit (StateT δ Ui)

section

variable {δ : Type}

def Exchange.fail : Exchange δ Unit := throw ()

def Exchange.call (c : UiCall) : Exchange δ c.Reply :=
  ExceptT.lift (StateT.lift (Ui.call c))

def ddxText (pDX : CDataExchange) (id : EditId) (member : δ → WString)
    (assign : WString → δ → δ) : Exchange δ Unit :=
  match pDX with
  | .save controls => modify (assign (controls id).text)
  | .show => do Exchange.call (.setDlgItemText id (member (← get)))

/-- `DDX_Text` of an `int`; `ddxInt` is the text to `int` conversion of MFC. -/
def ddxTextInt (ddxInt : WString → Option CInt) (pDX : CDataExchange) (id : EditId)
    (member : δ → CInt) (assign : CInt → δ → δ) : Exchange δ Unit :=
  match pDX with
  | .save controls =>
    match ddxInt (controls id).text with
    | some n => modify (assign n)
    | none => Exchange.fail
  | .show => do Exchange.call (.setDlgItemText id (formatInt (member (← get)).toInt))

def decimalInt (s : WString) : Option CInt :=
  (Ini.wholeInt digitValue 45 43 s).map (BitVec.ofInt 32)

def ddvMinMaxInt (pDX : CDataExchange) (value : CInt) (minVal maxVal : Int) : Exchange δ Unit :=
  match pDX with
  | .save _ => if value.toInt < minVal ∨ maxVal < value.toInt then Exchange.fail else pure ()
  | .show => pure ()

def Exchange.exec (exchange : Exchange δ Unit) (dlg : δ) : Ui (Except Unit Unit × δ) :=
  exchange.run.run dlg

def updateData (exchange : Exchange δ Unit) (dlg : δ) : Ui (Bool × δ) := do
  let (result, dlg) ← exchange.exec dlg
  match result with
  | .ok _ => pure (true, dlg)
  | .error _ => pure (false, dlg)

theorem updateData_ok {exchange : Exchange δ Unit} {dlg dlg' : δ}
    (h : exchange.exec dlg = pure (.ok (), dlg')) : updateData exchange dlg = pure (true, dlg') := by
  rw [updateData, h]
  rfl

/-! One exchange after the other, on what the controls hold. -/

variable {controls : Controls} {id : EditId} {ddxInt : WString → Option CInt} {dlg : δ}

@[simp] theorem exec_ddxText {member : δ → WString} {assign : WString → δ → δ}
    {k : Unit → Exchange δ Unit} :
    (ddxText (.save controls) id member assign >>= k).exec dlg =
      (k ()).exec (assign (controls id).text dlg) := (rfl)

@[simp] theorem exec_ddxText_last {member : δ → WString} {assign : WString → δ → δ} :
    (ddxText (.save controls) id member assign).exec dlg =
      pure (.ok (), assign (controls id).text dlg) := (rfl)

theorem exec_ddxTextInt_some {member : δ → CInt} {assign : CInt → δ → δ}
    {k : Unit → Exchange δ Unit} {n : CInt} (h : ddxInt (controls id).text = some n) :
    (ddxTextInt ddxInt (.save controls) id member assign >>= k).exec dlg =
      (k ()).exec (assign n dlg) := by
  simp only [ddxTextInt, h]
  rfl

theorem exec_ddxTextInt_none {member : δ → CInt} {assign : CInt → δ → δ}
    {k : Unit → Exchange δ Unit} (h : ddxInt (controls id).text = none) :
    (ddxTextInt ddxInt (.save controls) id member assign >>= k).exec dlg =
      pure (.error (), dlg) := by
  simp only [ddxTextInt, h]
  rfl

@[simp] theorem exec_get {k : δ → Exchange δ Unit} :
    ((get : Exchange δ δ) >>= k).exec dlg = (k dlg).exec dlg := (rfl)

theorem exec_ddvMinMaxInt {value : CInt} {minVal maxVal : Int} {k : Unit → Exchange δ Unit} :
    (ddvMinMaxInt (.save controls) value minVal maxVal >>= k).exec dlg =
      if minVal ≤ value.toInt ∧ value.toInt ≤ maxVal then (k ()).exec dlg
      else pure (.error (), dlg) := by
  unfold ddvMinMaxInt
  by_cases h : value.toInt < minVal ∨ maxVal < value.toInt
  · have hn : ¬ (minVal ≤ value.toInt ∧ value.toInt ≤ maxVal) := by omega
    rw [if_neg hn, if_pos h]
    rfl
  · have hn : minVal ≤ value.toInt ∧ value.toInt ≤ maxVal := by omega
    rw [if_pos hn, if_neg h]
    rfl

theorem exec_ddvMinMaxInt_last {value : CInt} {minVal maxVal : Int} :
    (ddvMinMaxInt (.save controls) value minVal maxVal).exec dlg =
      if minVal ≤ value.toInt ∧ value.toInt ≤ maxVal then pure (.ok (), dlg)
      else pure (.error (), dlg) := by
  unfold ddvMinMaxInt
  by_cases h : value.toInt < minVal ∨ maxVal < value.toInt
  · have hn : ¬ (minVal ≤ value.toInt ∧ value.toInt ≤ maxVal) := by omega
    rw [if_neg hn, if_pos h]
    rfl
  · have hn : minVal ≤ value.toInt ∧ value.toInt ≤ maxVal := by omega
    rw [if_pos hn, if_neg h]
    rfl

end

end PrizeSender
