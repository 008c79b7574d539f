import PrizeSender.Events
import PrizeSender.RoundTrip
import PrizeSender.SessionSpec

namespace PrizeSender

open Prog CTlPrizeSenderDlg

def CAppConfig.confirmed (config : CAppConfig) : Confirmed :=
  ⟨config.mDbConfig, config.mPrizeConfig⟩

def Confirmed.config (c : Confirmed) : CAppConfig := ⟨c.D, c.P⟩

/-- The configuration that is loaded where this one has been saved. -/
def CAppConfig.reread (config : CAppConfig) : CAppConfig where
  mDbConfig :=
    { mHost := readSetting config.mDbConfig.mHost
      mPort := config.mDbConfig.mPort
      mName := readSetting config.mDbConfig.mName
      mUsername := readSetting config.mDbConfig.mUsername
      mPassword := readSetting config.mDbConfig.mPassword }
  mPrizeConfig :=
    { config.mPrizeConfig with mUsername := readSetting config.mPrizeConfig.mUsername }

variable {sv : Sql.Server} {cp : CodePage UInt16 UInt8} {ddxInt : WString → Option CInt}
variable {F : Profile} {fs : Files} {config : CAppConfig} {c : Confirmed} {o : Nat → DeskChoice} {s : Desk}

theorem load_save_eq (hline : ∀ t ∈ strings config, OneLine t) :
    (F.save config).load = config.reread := by
  obtain ⟨hport, hworld, hcharguid, hitem, hcount, hhost, hname, hdbUsername, hpassword, husername,
    _⟩ := load_save (F := F) hline
  generalize (F.save config).load = loaded at *
  obtain ⟨⟨host, port, name, dbUsername, password⟩, username, world, charguid, item, count⟩ := loaded
  simp only at hport hworld hcharguid hitem hcount hhost hname hdbUsername hpassword husername
  simp only [CAppConfig.reread, hport, hworld, hcharguid, hitem, hcount, hhost, hname, hdbUsername,
    hpassword, husername]

/-! What a session leaves in the profile files. -/

def Files.after (fs : Files) : Act → Files
  | .send .. => fs
  | .write appName keyName value fileName => fs.write appName keyName value fileName

/-- The files change by what is observed of a run, and by nothing else. -/
theorem run_files {α : Type} (p : Ui α) (o : Nat → DeskChoice) (s : Desk) :
    (p.run (desk sv cp) o () s).2.2.files =
      ((p.events (desk sv cp) o () s).filterMap observe).foldl Files.after s.files := by
  rw [List.foldl_filterMap]
  apply run_view
  rintro x ⟨⟩ s c
  cases c <;> rfl

theorem foldl_after_play (actions : List Action) (c : Confirmed) :
    (c.play ddxInt actions).1.foldl Files.after fs = fs := by
  induction actions generalizing c with
  | nil => rfl
  | cons action actions ih =>
    cases action with
    | showSetting presses =>
      rw [Confirmed.play]
      split
      next => exact ih _
      next => exact ih _
    | send controls =>
      rw [Confirmed.play]
      split
      next => exact ih _
      next => exact ih _
    | enter controls =>
      rw [Confirmed.play]
      split
      next => rfl
      next => exact ih _

theorem foldl_after_writes :
    c.writes.foldl Files.after fs = fs.save c.config appConfigPath := by
  have hwrites : c.writes =
      (settings c.config).map fun p => .write p.1.1 p.1.2 p.2 appConfigPath := rfl
  rw [hwrites, List.foldl_map, files_save_eq]
  rfl

theorem session_events (sv : Sql.Server) (cp : CodePage UInt16 UInt8)
    (ddxInt : WString → Option CInt) (actions : List Action) (o : Nat → DeskChoice) (s : Desk) :
    ((session ddxInt cp actions).events (desk sv cp) o () s).filterMap observe =
      Confirmed.session ddxInt actions s.appConfig.load.confirmed := by
  have hloaded : ((CAppConfig.loadFromFile appConfigPath).trace
      ((session ddxInt cp actions).replies (desk sv cp) o () s)).2 = s.appConfig.load := rfl
  have hacts : ((session ddxInt cp actions).trace
      ((session ddxInt cp actions).replies (desk sv cp) o () s)).1.filterMap observe =
      Confirmed.session ddxInt actions s.appConfig.load.confirmed :=
    session_acts actions _ hloaded
  rw [trace_replies] at hacts
  exact hacts

/-- After a session the config file holds what has been confirmed last. -/
theorem session_files (sv : Sql.Server) (cp : CodePage UInt16 UInt8)
    (ddxInt : WString → Option CInt) (actions : List Action) (o : Nat → DeskChoice) (s : Desk) :
    ((session ddxInt cp actions).run (desk sv cp) o () s).2.2.files = s.files.save
      (s.appConfig.load.confirmed.play ddxInt actions).2.config appConfigPath := by
  rw [run_files, session_events, Confirmed.session, List.foldl_append, foldl_after_play,
    foldl_after_writes]

theorem oneLine_acceptDb {controls : Controls} {D : CAppConfigDb}
    (h : acceptDb ddxInt controls = some D) :
    ∀ t ∈ [D.mHost, D.mName, D.mUsername, D.mPassword], OneLine t := by
  simp only [acceptDb, Option.bind_eq_bind, Option.bind_eq_some_iff] at h
  obtain ⟨port, _, h⟩ := h
  split at h
  next =>
    cases h
    simp [LineText.oneLine]
  next => cases h

theorem oneLine_acceptPrize {controls : Controls} {P : CAppConfigPrize}
    (h : acceptPrize ddxInt controls = some P) : OneLine P.mUsername := by
  rw [(acceptPrize_some h).1]
  exact (controls .idcEdit1).oneLine

theorem strings_config_iff : (∀ t ∈ strings c.config, OneLine t) ↔
    (∀ t ∈ [c.D.mHost, c.D.mName, c.D.mUsername, c.D.mPassword], OneLine t) ∧
      OneLine c.P.mUsername := by
  simp [strings, stringSettings, Confirmed.config, and_assoc]

/-- What is confirmed in a session fits on a line of the file. -/
theorem oneLine_play (actions : List Action) (h : ∀ t ∈ strings c.config, OneLine t) :
    ∀ t ∈ strings (c.play ddxInt actions).2.config, OneLine t := by
  induction actions generalizing c with
  | nil => exact h
  | cons action actions ih =>
    rw [strings_config_iff] at h
    cases action with
    | showSetting presses =>
      rw [Confirmed.play]
      split
      next D hD =>
        obtain ⟨controls, _, haccept⟩ := List.exists_of_findSome?_eq_some hD
        exact ih (strings_config_iff.mpr ⟨oneLine_acceptDb haccept, h.2⟩)
      next => exact ih (strings_config_iff.mpr h)
    | send controls =>
      rw [Confirmed.play]
      split
      next P hP => exact ih (strings_config_iff.mpr ⟨h.1, oneLine_acceptPrize hP⟩)
      next => exact ih (strings_config_iff.mpr h)
    | enter controls =>
      rw [Confirmed.play]
      split
      next => exact strings_config_iff.mpr h
      next => exact ih (strings_config_iff.mpr h)

/-! One session after the other. -/

/-- The acts of any number of sessions, and the desk after them. -/
def lifetime (sv : Sql.Server) (cp : CodePage UInt16 UInt8) (ddxInt : WString → Option CInt) :
    List (List Action × (Nat → DeskChoice)) → Desk → List Act × Desk
  | [], s => ([], s)
  | (actions, o) :: sessions, s =>
    let program := session ddxInt cp actions
    let later := lifetime sv cp ddxInt sessions (program.run (desk sv cp) o () s).2.2
    ((program.events (desk sv cp) o () s).filterMap observe ++ later.1, later.2)

/-- The acts as they are meant: each session starts with the configuration that
the one before has confirmed, its strings as they are read back. -/
def CAppConfig.lifetime (ddxInt : WString → Option CInt) :
    List (List Action) → CAppConfig → List Act × CAppConfig
  | [], config => ([], config)
  | actions :: sessions, config =>
    let spec := config.confirmed.play ddxInt actions
    let later := lifetime ddxInt sessions spec.2.config.reread
    (spec.1 ++ spec.2.writes ++ later.1, later.2)

/-- Over any number of sessions, with any faults of the server, the program does
what is meant, and no value of the config file but its own is touched, and no
other file. -/
theorem lifetime_refines (sv : Sql.Server) (cp : CodePage UInt16 UInt8)
    (ddxInt : WString → Option CInt) (sessions : List (List Action × (Nat → DeskChoice)))
    (s : Desk) :
    let run := lifetime sv cp ddxInt sessions s
    let spec := s.appConfig.load.lifetime ddxInt (sessions.map Prod.fst)
    run.1 = spec.1 ∧ run.2.appConfig.load = spec.2 ∧
      (∀ k, k ∉ settingKeys → run.2.appConfig.value k = s.appConfig.value k) ∧
      ∀ path, path ≠ appConfigPath → run.2.files path = s.files path := by
  induction sessions generalizing s with
  | nil => exact ⟨rfl, rfl, fun _ _ => rfl, fun _ _ => rfl⟩
  | cons x sessions ih =>
    obtain ⟨actions, o⟩ := x
    have hline : ∀ t ∈ strings s.appConfig.load.confirmed.config, OneLine t := oneLine_load
    have hfiles := session_files sv cp ddxInt actions o s
    obtain ⟨hacts, hload, hkeys, hothers⟩ :=
      ih ((session ddxInt cp actions).run (desk sv cp) o () s).2.2
    have hfile : ((session ddxInt cp actions).run (desk sv cp) o () s).2.2.appConfig =
        s.appConfig.save (s.appConfig.load.confirmed.play ddxInt actions).2.config := by
      rw [Desk.appConfig, hfiles, Files.save_self]
      rfl
    rw [hfile, load_save_eq (oneLine_play actions hline)] at hacts hload
    refine ⟨?_, hload, ?_, ?_⟩
    · simp only [lifetime, session_events, hacts]
      rfl
    · intro k hk
      rw [lifetime, hkeys k hk, hfile, save_eq_writeAll]
      exact writeAll_frame (by rwa [map_fst_settings])
    · intro path hpath
      rw [lifetime, hothers path hpath, hfiles, Files.save_of_ne hpath]

end PrizeSender
