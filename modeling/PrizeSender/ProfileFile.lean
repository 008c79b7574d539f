import PrizeSender.Ini
import PrizeSender.Dialogs

namespace PrizeSender

def plainUnit (u : UInt16) : Bool := u ≠ 0 ∧ u ≠ 10 ∧ u ≠ 13

theorem oneLine_iff {s : WString} : OneLine s ↔ ∀ u ∈ s, plainUnit u = true := by
  simp [OneLine, plainUnit]

theorem OneLine.sublist {s t : WString} (h : OneLine s) (hs : t.Sublist s) : OneLine t :=
  fun u hu => h u (hs.subset hu)

/-- The part of a text that one line of a file holds. -/
def firstLine (s : WString) : LineText where
  text := s.takeWhile plainUnit
  oneLine := oneLine_iff.mpr fun _ hu => List.mem_takeWhile_imp hu

theorem firstLine_text {s : WString} (h : OneLine s) : (firstLine s).text = s :=
  List.takeWhile_eq_self_iff.mpr (oneLine_iff.mp h)

/-! What the profile functions take for blanks and quotes. -/

def blank (u : UInt16) : Bool := u = 32 || u = 9

def quote (u : UInt16) : Bool := u = 34 || u = 39

/-- A profile file: the text after `key=` for each section and key. -/
structure Profile where
  value : String × String → Option WString
  oneLine : ∀ k s, value k = some s → OneLine s

namespace Profile

def empty : Profile := ⟨fun _ => none, fun _ _ h => by cases h⟩

def write (F : Profile) (appName keyName : String) (text : WString) : Profile where
  value := Function.update F.value (appName, keyName) (some (firstLine text).text)
  oneLine k s h := by
    by_cases hk : k = (appName, keyName)
    · subst hk
      rw [Function.update_self] at h
      cases h
      exact (firstLine text).oneLine
    · rw [Function.update_of_ne hk] at h
      exact F.oneLine k s h

/-- `GetPrivateProfileString` into a buffer of `size` characters. -/
def getString (F : Profile) (appName keyName : String) (default : WString) (size : Nat) :
    LineText :=
  match h : F.value (appName, keyName) with
  | some s => ⟨Ini.readText blank quote (size - 1) s, (F.oneLine _ s h).sublist Ini.readText_sublist⟩
  | none => firstLine (default.take (size - 1))

/-- `GetPrivateProfileInt`: the leading decimal integer as an unsigned 32-bit
value. -/
def getInt (F : Profile) (appName keyName : String) (default : CInt) : BitVec 32 :=
  match F.value (appName, keyName) with
  | some s => BitVec.ofInt 32 ((Ini.leadingInt digitValue 45 43 (Ini.trim blank s)).getD 0)
  | none => default

theorem getString_text {F : Profile} {appName keyName : String} {size : Nat} {s : WString}
    (h : F.value (appName, keyName) = some s) :
    (F.getString appName keyName [] size).text = Ini.readText blank quote (size - 1) s := by
  unfold getString
  split
  next t ht =>
    rw [h] at ht
    cases ht
    rfl
  next ht =>
    rw [h] at ht
    cases ht

def load (F : Profile) : CAppConfig where
  mDbConfig :=
    { mHost := (F.getString "db" "host" [] 150).text
      mPort := (F.getInt "db" "port" 3306).setWidth 16
      mName := (F.getString "db" "name" [] 150).text
      mUsername := (F.getString "db" "username" [] 150).text
      mPassword := (F.getString "db" "password" [] 150).text }
  mPrizeConfig :=
    { mUsername := (F.getString "prize" "username" [] 150).text
      mWorld := F.getInt "prize" "world" 0
      mCharguid := F.getInt "prize" "charguid" 0
      mItem := F.getInt "prize" "item" 0
      mCount := F.getInt "prize" "count" 0 }

def save (F : Profile) (config : CAppConfig) : Profile :=
  let db := config.mDbConfig
  let prize := config.mPrizeConfig
  F.write "db" "host" db.mHost
    |>.write "db" "port" (formatInt db.mPort.toNat)
    |>.write "db" "name" db.mName
    |>.write "db" "username" db.mUsername
    |>.write "db" "password" db.mPassword
    |>.write "prize" "username" prize.mUsername
    |>.write "prize" "world" (formatInt prize.mWorld.toInt)
    |>.write "prize" "charguid" (formatInt prize.mCharguid.toInt)
    |>.write "prize" "item" (formatInt prize.mItem.toInt)
    |>.write "prize" "count" (formatInt prize.mCount.toInt)

end Profile

theorem loadFromFile_reads {F : Profile} {filePath : String} {o : Nat → (c : UiCall) → c.Reply}
    (hstring : ∀ n appName keyName default size,
      o n (.getPrivateProfileString appName keyName default size filePath) =
        F.getString appName keyName default size)
    (hint : ∀ n appName keyName default,
      o n (.getPrivateProfileInt appName keyName default filePath) =
        F.getInt appName keyName default) :
    ((CAppConfig.loadFromFile filePath).trace o).2 = F.load := by
  simp only [CAppConfig.loadFromFile, getPrivateProfileString, getPrivateProfileInt, Ui.call,
    Prog.perform, Prog.trace_bind, Prog.trace, hstring, hint]
  rfl

/-- The profile files, each under its name. -/
abbrev Files := String → Profile

namespace Files

def getString (fs : Files) (appName keyName : String) (default : WString) (size : Nat)
    (fileName : String) : LineText :=
  (fs fileName).getString appName keyName default size

def getInt (fs : Files) (appName keyName : String) (default : CInt) (fileName : String) :
    BitVec 32 :=
  (fs fileName).getInt appName keyName default

def write (fs : Files) (appName keyName : String) (text : WString) (fileName : String) : Files :=
  Function.update fs fileName ((fs fileName).write appName keyName text)

def save (fs : Files) (config : CAppConfig) (fileName : String) : Files :=
  Function.update fs fileName ((fs fileName).save config)

variable {fs : Files} {config : CAppConfig} {fileName path : String}

@[simp] theorem save_self : fs.save config fileName fileName = (fs fileName).save config :=
  Function.update_self fileName _ fs

theorem save_of_ne (h : path ≠ fileName) : fs.save config fileName path = fs path :=
  Function.update_of_ne h _ fs

end Files

/-! The ten values of a configuration. -/

def settingKeys : List (String × String) := [
  ("db", "host"), ("db", "port"), ("db", "name"), ("db", "username"), ("db", "password"),
  ("prize", "username"), ("prize", "world"), ("prize", "charguid"), ("prize", "item"),
  ("prize", "count")]

def Profile.writeAll (F : Profile) (ps : List ((String × String) × WString)) : Profile :=
  ps.foldl (fun F p => F.write p.1.1 p.1.2 p.2) F

def Files.writeAll (fs : Files) (ps : List ((String × String) × WString)) (fileName : String) :
    Files :=
  ps.foldl (fun fs p => fs.write p.1.1 p.1.2 p.2 fileName) fs

section

variable {F : Profile} {ps : List ((String × String) × WString)} {k : String × String}
variable {config : CAppConfig} {s : WString}

theorem save_eq_writeAll : F.save config = F.writeAll (settings config) := rfl

/-- Writes under one file name change that file only. -/
theorem files_writeAll (fs : Files) (fileName : String) :
    fs.writeAll ps fileName = Function.update fs fileName ((fs fileName).writeAll ps) := by
  induction ps generalizing fs with
  | nil => exact (Function.update_eq_self fileName fs).symm
  | cons p ps ih =>
    rw [Files.writeAll, List.foldl_cons, ← Files.writeAll, ih, Files.write, Function.update_idem,
      Function.update_self]
    rfl

theorem files_save_eq (fs : Files) (fileName : String) :
    fs.save config fileName = fs.writeAll (settings config) fileName := by
  rw [files_writeAll, ← save_eq_writeAll]
  rfl

theorem map_fst_settings : (settings config).map Prod.fst = settingKeys := rfl

theorem writeAll_frame (hk : k ∉ ps.map Prod.fst) : (F.writeAll ps).value k = F.value k := by
  induction ps generalizing F with
  | nil => rfl
  | cons p ps ih =>
    rw [List.map_cons, List.mem_cons, not_or] at hk
    rw [Profile.writeAll, List.foldl_cons, ← Profile.writeAll, ih hk.2]
    exact Function.update_of_ne hk.1 _ _

/-- What is written under keys that all differ is found under each of them. -/
theorem writeAll_value (hkeys : (ps.map Prod.fst).Nodup) (hmem : (k, s) ∈ ps) (hs : OneLine s) :
    (F.writeAll ps).value k = some s := by
  induction ps generalizing F with
  | nil => cases hmem
  | cons p ps ih =>
    obtain ⟨hp, hrest⟩ := List.nodup_cons.mp hkeys
    rw [Profile.writeAll, List.foldl_cons, ← Profile.writeAll]
    rcases List.mem_cons.mp hmem with rfl | hmem
    · rw [writeAll_frame hp]
      simp [Profile.write, firstLine_text hs]
    · exact ih hrest hmem

theorem save_setting (hmem : (k, s) ∈ settings config) (hs : OneLine s) :
    (F.save config).value k = some s := by
  rw [save_eq_writeAll]
  refine writeAll_value ?_ hmem hs
  rw [map_fst_settings]
  decide

end

/-- The section and key of each string setting, with the setting. -/
def stringSettings (config : CAppConfig) : List ((String × String) × WString) := [
  (("db", "host"), config.mDbConfig.mHost),
  (("db", "name"), config.mDbConfig.mName),
  (("db", "username"), config.mDbConfig.mUsername),
  (("db", "password"), config.mDbConfig.mPassword),
  (("prize", "username"), config.mPrizeConfig.mUsername)]

def strings (config : CAppConfig) : List WString := (stringSettings config).map Prod.snd

theorem save_value {F : Profile} {config : CAppConfig} {k : String × String} {s : WString}
    (hk : (k, s) ∈ stringSettings config) (hs : OneLine s) : (F.save config).value k = some s := by
  have hsub : stringSettings config ⊆ settings config := by simp [stringSettings, settings]
  exact save_setting (hsub hk) hs

theorem strings_load (F : Profile) (config : CAppConfig) :
    strings F.load =
      (stringSettings config).map fun p => (F.getString p.1.1 p.1.2 [] 150).text := rfl

theorem strings_load_save {F : Profile} {config : CAppConfig}
    (h : ∀ s ∈ strings config, OneLine s) :
    strings (F.save config).load = (strings config).map (Ini.readText blank quote 149) := by
  rw [strings_load _ config, strings, List.map_map]
  apply List.map_congr_left
  rintro ⟨k, s⟩ hk
  exact Profile.getString_text (save_value hk (h s (List.mem_map_of_mem (f := Prod.snd) hk)))

theorem oneLine_load {F : Profile} : ∀ s ∈ strings F.load, OneLine s := by
  simp [strings, stringSettings, Profile.load, LineText.oneLine]

end PrizeSender
