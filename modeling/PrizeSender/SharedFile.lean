import PrizeSender.Mixture
import PrizeSender.Office
import PrizeSender.SendPort
import PrizeSender.Upholds

namespace PrizeSender

open Prog CTlPrizeSenderDlg

/-- Where the value of a key may come from when several instances use one file:
it was there, it has been typed into the control of its key, or it is what was
loaded from such a value. -/
inductive Origin (F : Profile) (typed : String × String → WString → Prop) (k : String × String) :
    Option WString → Prop where
  | file : Origin F typed k (F.value k)
  | typed {t : WString} (h : typed k t) : Origin F typed k (some t)
  | reread {F' : Profile} {t : WString} (h : Origin F typed k (F'.value k))
      (ht : (k, t) ∈ settings F'.load) : Origin F typed k (some t)

def dbSettings (D : CAppConfigDb) : Settings := [
  (("db", "host"), D.mHost), (("db", "port"), formatInt D.mPort.toNat), (("db", "name"), D.mName),
  (("db", "username"), D.mUsername), (("db", "password"), D.mPassword)]

def prizeSettings (P : CAppConfigPrize) : Settings := [
  (("prize", "username"), P.mUsername), (("prize", "world"), formatInt P.mWorld.toInt),
  (("prize", "charguid"), formatInt P.mCharguid.toInt), (("prize", "item"), formatInt P.mItem.toInt),
  (("prize", "count"), formatInt P.mCount.toInt)]

/-- What an action confirms, for the keys it is saved under. -/
def confirms (ddxInt : WString → Option CInt) : Action → Settings
  | .showSetting presses => ((presses.findSome? (acceptDb ddxInt)).map dbSettings).getD []
  | .send controls => ((acceptPrize ddxInt controls).map prizeSettings).getD []
  | .enter _ => []

section

variable {sv : Sql.Server} {cp : CodePage UInt16 UInt8} {ddxInt : WString → Option CInt}
variable {fs : Files} {F : Profile} {typed : String × String → WString → Prop} {c : Confirmed}

/-- Every value of the shared file has an origin, and the other files are as
they were. -/
structure Traced (fs : Files) (typed : String × String → WString → Prop) (s : Desk) : Prop where
  values : ∀ k, Origin (fs appConfigPath) typed k (s.appConfig.value k)
  others : ∀ path, path ≠ appConfigPath → s.files path = fs path

def Owned (F : Profile) (typed : String × String → WString → Prop) (ps : Settings) : Prop :=
  ∀ p ∈ ps, OneLine p.2 ∧ Origin F typed p.1 (some p.2)

theorem Origin.untouched {k : String × String} {v : Option WString} (h : Origin F typed k v)
    (hk : k ∉ settingKeys) (ht : ∀ t, ¬ typed k t) : v = F.value k := by
  cases h with
  | file => rfl
  | typed h => exact absurd h (ht _)
  | @reread F' t _ hset =>
    rw [← map_fst_settings] at hk
    exact absurd (List.mem_map_of_mem (f := Prod.fst) hset) hk

theorem settings_config : settings c.config = dbSettings c.D ++ prizeSettings c.P := rfl

theorem owned_config : Owned F typed (settings c.config) ↔
    Owned F typed (dbSettings c.D) ∧ Owned F typed (prizeSettings c.P) := by
  rw [settings_config]
  exact List.forall_mem_append

theorem oneLine_dbSettings {controls : Controls} {D : CAppConfigDb}
    (h : acceptDb ddxInt controls = some D) : ∀ p ∈ dbSettings D, OneLine p.2 := by
  have hline := oneLine_acceptDb h
  simp only [List.forall_mem_cons] at hline
  simp [dbSettings, hline, oneLine_formatInt]

theorem oneLine_prizeSettings {controls : Controls} {P : CAppConfigPrize}
    (h : acceptPrize ddxInt controls = some P) : ∀ p ∈ prizeSettings P, OneLine p.2 := by
  simp [prizeSettings, oneLine_acceptPrize h, oneLine_formatInt]

theorem confirms_key {action : Action} {p : (String × String) × WString}
    (hp : p ∈ confirms ddxInt action) : p.1 ∈ settingKeys := by
  have hdb : ∀ D, ∀ p ∈ dbSettings D, p.1 ∈ settingKeys := by simp [dbSettings, settingKeys]
  have hprize : ∀ P, ∀ p ∈ prizeSettings P, p.1 ∈ settingKeys := by simp [prizeSettings, settingKeys]
  cases action with
  | showSetting presses =>
    rw [confirms] at hp
    cases h : presses.findSome? (acceptDb ddxInt) with
    | none => simp [h] at hp
    | some D => exact hdb D p (by simpa [h] using hp)
  | send controls =>
    rw [confirms] at hp
    cases h : acceptPrize ddxInt controls with
    | none => simp [h] at hp
    | some P => exact hprize P p (by simpa [h] using hp)
  | enter controls => cases hp

/-- What has been confirmed at the end of the actions has an origin, if what
they confirm counts as typed. -/
theorem owned_play (actions : List Action) (h : Owned F typed (settings c.config))
    (ht : ∀ action ∈ actions, ∀ p ∈ confirms ddxInt action, typed p.1 p.2) :
    Owned F typed (settings (c.play ddxInt actions).2.config) := by
  induction actions generalizing c with
  | nil => exact h
  | cons action actions ih =>
    obtain ⟨hnow, hlater⟩ := List.forall_mem_cons.mp ht
    obtain ⟨hdb, hprize⟩ := owned_config.mp h
    cases action with
    | showSetting presses =>
      rw [Confirmed.play]
      split
      next D hD =>
        obtain ⟨controls, _, haccept⟩ := List.exists_of_findSome?_eq_some hD
        refine ih (owned_config.mpr ⟨?_, hprize⟩) hlater
        intro p hp
        exact ⟨oneLine_dbSettings haccept p hp, .typed (hnow p (by simpa [confirms, hD] using hp))⟩
      next => exact ih h hlater
    | send controls =>
      rw [Confirmed.play]
      split
      next P hP =>
        refine ih (owned_config.mpr ⟨hdb, ?_⟩) hlater
        intro p hp
        exact ⟨oneLine_prizeSettings hP p hp, .typed (hnow p (by simpa [confirms, hP] using hp))⟩
      next => exact ih h hlater
    | enter controls =>
      rw [Confirmed.play]
      split
      next => exact h
      next => exact ih h hlater

variable {β : Type} {Q : β → Unit → Prop} {appName keyName : String}

theorem upholds_getString {k : LineText → Ui β}
    (hmem : ∀ F' : Profile,
      ((appName, keyName), (F'.getString appName keyName [] 150).text) ∈ settings F'.load)
    (h : ∀ r, Origin (fs appConfigPath) typed (appName, keyName) (some r.text) →
      (k r).Upholds (desk sv cp) (Traced fs typed) Q ()) :
    (getPrivateProfileString appName keyName [] 150 appConfigPath >>= k).Upholds (desk sv cp)
      (Traced fs typed) Q () :=
  fun s hs _ => ⟨hs, h _ (.reread (hs.values _) (hmem s.appConfig))⟩

theorem upholds_getInt {default : CInt} {k : BitVec 32 → Ui β} (text : BitVec 32 → WString)
    (hmem : ∀ F' : Profile,
      ((appName, keyName), text (F'.getInt appName keyName default)) ∈ settings F'.load)
    (h : ∀ r, Origin (fs appConfigPath) typed (appName, keyName) (some (text r)) →
      (k r).Upholds (desk sv cp) (Traced fs typed) Q ()) :
    (getPrivateProfileInt appName keyName default appConfigPath >>= k).Upholds (desk sv cp)
      (Traced fs typed) Q () :=
  fun s hs _ => ⟨hs, h _ (.reread (hs.values _) (hmem s.appConfig))⟩

/-- The ten values are read at ten moments, each from a traced file. -/
theorem loadFromFile_upholds :
    (CAppConfig.loadFromFile appConfigPath).Upholds (desk sv cp) (Traced fs typed)
      (fun config _ => Owned (fs appConfigPath) typed (settings config)) () := by
  refine upholds_getString (by simp [settings, Profile.load]) fun host hhost => ?_
  refine upholds_getInt (fun r => formatInt (r.setWidth 16).toNat)
    (by simp [settings, Profile.load]) fun port hport => ?_
  refine upholds_getString (by simp [settings, Profile.load]) fun name hname => ?_
  refine upholds_getString (by simp [settings, Profile.load]) fun username husername => ?_
  refine upholds_getString (by simp [settings, Profile.load]) fun password hpassword => ?_
  refine upholds_getString (by simp [settings, Profile.load]) fun account haccount => ?_
  refine upholds_getInt (fun r => formatInt r.toInt) (by simp [settings, Profile.load])
    fun world hworld => ?_
  refine upholds_getInt (fun r => formatInt r.toInt) (by simp [settings, Profile.load])
    fun charguid hcharguid => ?_
  refine upholds_getInt (fun r => formatInt r.toInt) (by simp [settings, Profile.load])
    fun item hitem => ?_
  refine upholds_getInt (fun r => formatInt r.toInt) (by simp [settings, Profile.load])
    fun count hcount => ?_
  intro p hp
  simp only [settings, List.mem_cons, List.not_mem_nil, or_false] at hp
  rcases hp with rfl | rfl | rfl | rfl | rfl | rfl | rfl | rfl | rfl | rfl
  · exact ⟨host.oneLine, hhost⟩
  · exact ⟨oneLine_formatInt (port.setWidth 16).toNat, hport⟩
  · exact ⟨name.oneLine, hname⟩
  · exact ⟨username.oneLine, husername⟩
  · exact ⟨password.oneLine, hpassword⟩
  · exact ⟨account.oneLine, haccount⟩
  · exact ⟨oneLine_formatInt world.toInt, hworld⟩
  · exact ⟨oneLine_formatInt charguid.toInt, hcharguid⟩
  · exact ⟨oneLine_formatInt item.toInt, hitem⟩
  · exact ⟨oneLine_formatInt count.toInt, hcount⟩

theorem traced_write {s : Desk} {p : (String × String) × WString} (hs : Traced fs typed s)
    (hline : OneLine p.2) (horigin : Origin (fs appConfigPath) typed p.1 (some p.2)) :
    Traced fs typed { s with files := s.files.write p.1.1 p.1.2 p.2 appConfigPath } := by
  constructor
  · intro k
    simp only [Desk.appConfig, Files.write, Function.update_self]
    by_cases hk : k = p.1
    · subst hk
      simpa [Profile.write, firstLine_text hline] using horigin
    · simpa [Desk.appConfig, Profile.write, Function.update_of_ne hk] using hs.values k
  · intro path hpath
    simp only [Files.write, Function.update_of_ne hpath]
    exact hs.others path hpath

theorem writeSettings_upholds {ps : Settings} (h : Owned (fs appConfigPath) typed ps) :
    (writeSettings appConfigPath ps).Upholds (desk sv cp) (Traced fs typed)
      (fun _ _ => True) () := by
  induction ps with
  | nil => trivial
  | cons p ps ih =>
    obtain ⟨⟨hline, horigin⟩, hps⟩ := List.forall_mem_cons.mp h
    exact fun s hs _ => ⟨traced_write hs hline horigin, ih hps⟩

def UiCall.Unwriting : UiCall → Prop
  | .writePrivateProfileString .. => False
  | _ => True

theorem unwriting_traced (call : UiCall) (hc : call.Unwriting) (x : DeskChoice) (l : Unit) (s : Desk)
    (h : Traced fs typed s) : Traced fs typed (desk sv cp x l s call).2.2 := by
  cases call with
  | writePrivateProfileString => exact hc.elim
  | _ => exact ⟨h.values, h.others⟩

/-- In the main window prizes are sent and nothing is written. -/
theorem play_sends (actions : List Action) (c : Confirmed) :
    ∀ a ∈ (c.play ddxInt actions).1, ∃ D P, a = .send D P := by
  induction actions generalizing c with
  | nil => simp [Confirmed.play]
  | cons action actions ih =>
    cases action with
    | showSetting presses =>
      rw [Confirmed.play]
      split
      next => exact ih _
      next => exact ih _
    | send controls =>
      rw [Confirmed.play]
      split
      next P _ => exact List.forall_mem_cons.mpr ⟨⟨c.D, P, rfl⟩, ih _⟩
      next => exact ih _
    | enter controls =>
      rw [Confirmed.play]
      split
      next => simp
      next => exact ih _

theorem play_unwriting {dlg : CTlPrizeSenderDlg} (actions : List Action) (hs : Simulates dlg c)
    (o : Nat → (call : UiCall) → call.Reply) :
    (∀ e ∈ ((dlg.play ddxInt cp actions).trace o).1, e.1.Unwriting) ∧
      Simulates ((dlg.play ddxInt cp actions).trace o).2 (c.play ddxInt actions).2 := by
  have hwp : (dlg.play ddxInt cp actions).wp (monitor (collect observe)) .alone _ [] () :=
    play_acts actions hs
  obtain ⟨hsim, hacts⟩ := trace_of_wp hwp o
  rw [foldl_collect, List.nil_append, List.nil_append] at hacts
  refine ⟨?_, hsim⟩
  rintro ⟨call, r⟩ he
  cases call with
  | writePrivateProfileString appName keyName value filePath =>
    have hact : Act.write appName keyName value filePath ∈ (c.play ddxInt actions).1 := by
      rw [← hacts]
      exact List.mem_filterMap.mpr ⟨_, he, rfl⟩
    obtain ⟨D, P, h⟩ := play_sends actions c _ hact
    cases h
  | _ => trivial

theorem upholds_showTexts {k : Unit → Ui β} (ts : List (EditId × WString))
    (h : (k ()).Upholds (desk sv cp) (Traced fs typed) Q ()) :
    (showTexts ts >>= k).Upholds (desk sv cp) (Traced fs typed) Q () := by
  induction ts with
  | nil => exact h
  | cons t ts ih => exact fun _ hs _ => ⟨hs, ih⟩

theorem sessionFrom_upholds (actions : List Action) {config : CAppConfig}
    (h : Owned (fs appConfigPath) typed (settings config))
    (ht : ∀ action ∈ actions, ∀ p ∈ confirms ddxInt action, typed p.1 p.2) :
    (sessionFrom ddxInt cp actions config).Upholds (desk sv cp) (Traced fs typed)
      (fun _ _ => True) () := by
  have hs : Simulates config.dialog config.confirmed := ⟨rfl, rfl⟩
  rw [sessionFrom, updateData_show]
  apply upholds_bind (p := showTexts config.dialog.texts >>= fun _ =>
    Pure.pure (true, config.dialog))
  apply upholds_showTexts
  apply upholds_bind (p := config.dialog.play ddxInt cp actions)
  have hplay : (config.dialog.play ddxInt cp actions).Upholds (desk sv cp) (Traced fs typed)
      (fun dlg _ => Simulates dlg (config.confirmed.play ddxInt actions).2) () :=
    upholds_of_trace unwriting_traced (play_unwriting actions hs) fun call => ⟨blankReply call⟩
  refine upholds_mono hplay ?_
  rintro dlg ⟨⟩ hsim
  have hconfig : dlg.mAppConfig = (config.confirmed.play ddxInt actions).2.config := by
    rw [Confirmed.config, ← hsim.db, ← hsim.prize]
  rw [onDestroy, saveToFile_eq, hconfig]
  exact writeSettings_upholds (owned_play actions h ht)

theorem sittings_upholds (sessions : List (List Action))
    (ht : ∀ actions ∈ sessions, ∀ action ∈ actions, ∀ p ∈ confirms ddxInt action, typed p.1 p.2) :
    (sittings ddxInt cp sessions).Upholds (desk sv cp) (Traced fs typed) (fun _ _ => True) () := by
  induction sessions with
  | nil => trivial
  | cons actions sessions ih =>
    obtain ⟨hnow, hlater⟩ := List.forall_mem_cons.mp ht
    rw [sittings, session_eq]
    refine upholds_bind ?_
    refine upholds_bind ?_
    refine upholds_mono loadFromFile_upholds ?_
    rintro config ⟨⟩ hconfig
    refine upholds_mono (sessionFrom_upholds actions hconfig hnow) ?_
    rintro ⟨⟩ ⟨⟩ _
    exact ih hlater

end

/-- Instances of the program over one profile file, each opened and closed as
often as it has sessions. -/
def sharing {κ : Type} [DecidableEq κ] (sv : Sql.Server) (cp : CodePage UInt16 UInt8)
    (ddxInt : WString → Option CInt) (sessions : κ → List (List Action)) (s : Desk)
    (schedule : List (κ × DeskChoice)) : DeskPool κ :=
  Pool.interleave (fun _ => desk sv cp) schedule
    { threads := fun i => { prog := sittings ddxInt cp (sessions i), own := () }, shared := s }

/-- However the calls of any number of instances are interleaved, at every moment
each value of the config file they share was there, has been typed for its key
into an accepted form, or is such a value as it is read; other values and other
files are untouched. -/
theorem sharing_origins {κ : Type} [DecidableEq κ] (sv : Sql.Server) (cp : CodePage UInt16 UInt8)
    (ddxInt : WString → Option CInt) (sessions : κ → List (List Action)) (s : Desk)
    (schedule : List (κ × DeskChoice)) :
    let s' := (sharing sv cp ddxInt sessions s schedule).shared
    let typed k t := ∃ i, ∃ actions ∈ sessions i, ∃ action ∈ actions, (k, t) ∈ confirms ddxInt action
    (∀ k, Origin s.appConfig typed k (s'.appConfig.value k) ∧
      (k ∉ settingKeys → s'.appConfig.value k = s.appConfig.value k)) ∧
    ∀ path, path ≠ appConfigPath → s'.files path = s.files path := by
  intro s' typed
  have htraced : Traced s.files typed s' := by
    refine interleave_upholds (I := Traced s.files typed) (Q := fun _ _ _ => True) schedule
      (fun i => ?_) ⟨fun k => .file, fun _ _ => rfl⟩
    exact sittings_upholds (sessions i) fun actions hactions action haction p hp =>
      ⟨i, actions, hactions, action, haction, hp⟩
  refine ⟨fun k => ⟨htraced.values k, fun hk => (htraced.values k).untouched hk ?_⟩,
    htraced.others⟩
  rintro t ⟨i, actions, _, action, _, ht⟩
  exact hk (confirms_key ht)

end PrizeSender
