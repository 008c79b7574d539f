import PrizeSender.SessionSpec
import PrizeSender.ProfileFile

namespace PrizeSender

open Prog CTlPrizeSenderDlg

/-- The replies of a session whose config file is `F`. -/
def Profile.answering (F : Profile) (o : Nat → (c : UiCall) → c.Reply) :
    Nat → (c : UiCall) → c.Reply :=
  fun n c =>
  match c with
  | .getPrivateProfileString appName keyName default size fileName =>
    if fileName = appConfigPath then F.getString appName keyName default size
    else o n (.getPrivateProfileString appName keyName default size fileName)
  | .getPrivateProfileInt appName keyName default fileName =>
    if fileName = appConfigPath then F.getInt appName keyName default
    else o n (.getPrivateProfileInt appName keyName default fileName)
  | c => o n c

/-- The integer written under `[db] port`, if the text there is one. -/
def Profile.writtenPort (F : Profile) : Option Int :=
  match F.value ("db", "port") with
  | none => some 3306
  | some s => Ini.wholeInt digitValue 45 43 (Ini.trim blank s)

def IsPort (p : Int) : Prop := 1 ≤ p ∧ p ≤ 65535

def Profile.PortWritten (F : Profile) : Prop := ∃ p, F.writtenPort = some p ∧ IsPort p

instance {p : Int} : Decidable (IsPort p) := inferInstanceAs (Decidable (_ ∧ _))

/-- The port an accepted OK of the settings dialog confirms. -/
def typedPort (ddxInt : WString → Option CInt) (controls : Controls) : Option Int := do
  let port ← ddxInt (controls .idcEdit2).text
  if IsPort port.toInt then some port.toInt else none

/-- For each accepted Send, the port last confirmed before it, `q` at first. -/
def confirmedPorts (ddxInt : WString → Option CInt) :
    List Action → Option Int → List (Option Int)
  | [], _ => []
  | .showSetting presses :: actions, q =>
    confirmedPorts ddxInt actions ((presses.findSome? (typedPort ddxInt)).or q)
  | .send controls :: actions, q =>
    if (acceptPrize ddxInt controls).isSome then q :: confirmedPorts ddxInt actions q
    else confirmedPorts ddxInt actions q
  | .enter controls :: actions, q =>
    if (acceptPrize ddxInt controls).isSome then [] else confirmedPorts ddxInt actions q

/-- A send with a name, an item and a count, and with the port last confirmed
or, if none was, the one in the file. -/
structure GoodSend (F : Profile) (q : Option Int) (call : CAppConfigDb × CAppConfigPrize) :
    Prop where
  username : call.2.mUsername ≠ []
  item : 1 ≤ call.2.mItem.toInt ∧ call.2.mItem.toInt ≤ intMax
  count : 1 ≤ call.2.mCount.toInt ∧ call.2.mCount.toInt ≤ intMax
  port : ∃ p, q.or F.writtenPort = some p ∧ IsPort p ∧ (call.1.mPort.toNat : Int) = p

def Act.send? : Act → Option (CAppConfigDb × CAppConfigPrize)
  | .send db prize => some (db, prize)
  | _ => none

def sends (ddxInt : WString → Option CInt) (cp : CodePage UInt16 UInt8) (actions : List Action)
    (o : Nat → (c : UiCall) → c.Reply) : List (CAppConfigDb × CAppConfigPrize) :=
  (((session ddxInt cp actions).trace o).1.filterMap observe).filterMap Act.send?

variable {ddxInt : WString → Option CInt} {cp : CodePage UInt16 UInt8} {F : Profile}
variable {o : Nat → (c : UiCall) → c.Reply} {c : Confirmed} {q : Option Int}

theorem loadFromFile_answering :
    ((CAppConfig.loadFromFile appConfigPath).trace (F.answering o)).2 = F.load := by
  apply loadFromFile_reads
  · intro n appName keyName default size
    simp only [Profile.answering, if_true]
  · intro n appName keyName default
    simp only [Profile.answering, if_true]

theorem writes_send? : c.writes.filterMap Act.send? = [] := rfl

theorem sends_eq (actions : List Action) :
    sends ddxInt cp actions (F.answering o) =
      (Confirmed.play ddxInt actions ⟨F.load.mDbConfig, F.load.mPrizeConfig⟩).1.filterMap
        Act.send? := by
  rw [sends, session_acts actions _ loadFromFile_answering, Confirmed.session,
    List.filterMap_append, writes_send?, List.append_nil]

theorem load_port {p : Int} (h : F.writtenPort = some p) (hp : IsPort p) :
    (F.load.mDbConfig.mPort.toNat : Int) = p := by
  obtain ⟨h1, h2⟩ := hp
  unfold Profile.writtenPort at h
  simp only [Profile.load, Profile.getInt]
  split at h
  next hv =>
    cases h
    rw [hv]
    rfl
  next s hv =>
    rw [hv]
    simp only [Ini.leadingInt_of_wholeInt h, Option.getD_some, BitVec.toNat_setWidth,
      BitVec.toNat_ofInt]
    omega

theorem acceptDb_port {controls : Controls} :
    (acceptDb ddxInt controls).map (fun D => (D.mPort.toNat : Int)) = typedPort ddxInt controls := by
  unfold acceptDb typedPort
  cases ddxInt (controls .idcEdit2).text with
  | none => rfl
  | some port =>
    simp only [Option.bind_eq_bind, Option.bind_some]
    by_cases h : IsPort port.toInt
    · have h' : 1 ≤ port.toInt ∧ port.toInt ≤ 65535 := h
      rw [if_pos h', if_pos h, Option.map_some]
      congr 1
      have hlt : port.toNat < 2 ^ 32 := port.isLt
      rw [BitVec.toInt_eq_toNat_cond] at h' ⊢
      simp only [BitVec.toNat_setWidth]
      split at h'
      next => omega
      next => omega
    · have h' : ¬ (1 ≤ port.toInt ∧ port.toInt ≤ 65535) := h
      rw [if_neg h', if_neg h, Option.map_none]

theorem typedPort_isPort {controls : Controls} {p : Int} (h : typedPort ddxInt controls = some p) :
    IsPort p := by
  simp only [typedPort, Option.bind_eq_bind, Option.bind_eq_some_iff] at h
  obtain ⟨port, _, h⟩ := h
  split at h
  next hp =>
    cases h
    exact hp
  next => cases h

/-- The settings hold the port last confirmed, or the one loaded. -/
def PortOf (F : Profile) (q : Option Int) (D : CAppConfigDb) : Prop :=
  match q with
  | some p => IsPort p ∧ (D.mPort.toNat : Int) = p
  | none => D.mPort = F.load.mDbConfig.mPort

theorem goodSend_iff {controls : Controls} {D : CAppConfigDb} {P : CAppConfigPrize}
    (hP : acceptPrize ddxInt controls = some P) (hD : PortOf F q D) :
    GoodSend F q (D, P) ↔ (q = none → F.PortWritten) := by
  obtain ⟨_, hname, hitem, hcount⟩ := acceptPrize_some hP
  constructor
  · rintro hg rfl
    obtain ⟨p, hp, hport, _⟩ := hg.port
    exact ⟨p, hp, hport⟩
  · intro hw
    refine ⟨hname, ⟨hitem, toInt_le_intMax _⟩, ⟨hcount, toInt_le_intMax _⟩, ?_⟩
    cases q with
    | some p => exact ⟨p, rfl, hD.1, hD.2⟩
    | none =>
      obtain ⟨p, hp, hport⟩ := hw rfl
      have hD : D.mPort = F.load.mDbConfig.mPort := hD
      exact ⟨p, hp, hport, by rw [hD, load_port hp hport]⟩

theorem portOf_confirmed {presses : List Controls} {D : CAppConfigDb} (hD : PortOf F q D) :
    PortOf F ((presses.findSome? (typedPort ddxInt)).or q)
      ((presses.findSome? (acceptDb ddxInt)).getD D) := by
  have hports : presses.findSome? (typedPort ddxInt) =
      (presses.findSome? (acceptDb ddxInt)).map fun D => (D.mPort.toNat : Int) := by
    rw [List.map_findSome?]
    congr 1
    funext controls
    exact acceptDb_port.symm
  cases ha : presses.findSome? (acceptDb ddxInt) with
  | none =>
    rw [ha] at hports
    rw [hports]
    exact hD
  | some D' =>
    rw [ha] at hports
    rw [hports]
    obtain ⟨controls, _, hc⟩ := List.exists_of_findSome?_eq_some hports
    exact ⟨typedPort_isPort hc, rfl⟩

/-- Along the actions every send is good once a port has been confirmed, and
before that if the file holds one. -/
theorem play_good_iff (actions : List Action) (hD : PortOf F q c.D) :
    List.Forall₂ (GoodSend F) (confirmedPorts ddxInt actions q)
        ((c.play ddxInt actions).1.filterMap Act.send?) ↔
      ∀ x ∈ confirmedPorts ddxInt actions q, x = none → F.PortWritten := by
  induction actions generalizing c q with
  | nil => simp [confirmedPorts, Confirmed.play]
  | cons action actions ih =>
    cases action with
    | showSetting presses =>
      have hplay : c.play ddxInt (.showSetting presses :: actions) =
          Confirmed.play ddxInt actions
            { c with D := (presses.findSome? (acceptDb ddxInt)).getD c.D } := by
        rw [Confirmed.play]
        cases presses.findSome? (acceptDb ddxInt) <;> rfl
      rw [hplay, confirmedPorts]
      exact ih (portOf_confirmed hD)
    | send controls =>
      cases ha : acceptPrize ddxInt controls with
      | none => simpa [confirmedPorts, Confirmed.play, ha] using ih hD
      | some P =>
        have ih := ih (c := { c with P }) hD
        simp only [confirmedPorts, Confirmed.play, ha, Option.isSome_some, if_true,
          List.filterMap_cons, Act.send?, List.forall₂_cons, goodSend_iff ha hD, ih,
          List.forall_mem_cons]
    | enter controls =>
      cases ha : acceptPrize ddxInt controls with
      | none => simpa [confirmedPorts, Confirmed.play, ha] using ih hD
      | some P => simp [confirmedPorts, Confirmed.play, ha]

/-- Nothing is read, and every send succeeds. -/
def blankReply : (c : UiCall) → c.Reply
  | .getPrivateProfileString .. => ⟨[], by decide⟩
  | .getPrivateProfileInt .. => 0
  | .writePrivateProfileString .. => ()
  | .setDlgItemText .. => ()
  | .afxMessageBox .. => ()
  | .messageBox .. => ()
  | .getWindowText => ⟨[], by decide⟩
  | .setWindowText _ => ()
  | .enableWindow _ => ()
  | .processSendPrize .. => .ok ()

end PrizeSender
