import PrizeSender.Desk

namespace PrizeSender

open Prog

theorem toNat_of_isDigit {c : Char} (h : c.isDigit) : 48 ≤ c.toNat ∧ c.toNat ≤ 57 := by
  simp only [Char.isDigit, Bool.and_eq_true, decide_eq_true_eq] at h
  exact h

/-- The digits of `Format("%d", n)` are those the profile functions read. -/
theorem decimal : Ini.Decimal digitValue 45 43 fun c => c.toNat.toUInt16 where
  digit c hc := by
    obtain ⟨hlow, hhigh⟩ := toNat_of_isDigit hc
    have hnat : c.toNat.toUInt16.toNat = c.toNat := by
      simp
      omega
    have hrange : (48 : UInt16) ≤ c.toNat.toUInt16 ∧ c.toNat.toUInt16 ≤ 57 := by
      constructor
      · rw [UInt16.le_iff_toNat_le, hnat]
        exact hlow
      · rw [UInt16.le_iff_toNat_le, hnat]
        exact hhigh
    rw [digitValue, if_pos hrange, hnat]
  minus := by decide
  plus := by decide

theorem formatInt_eq (n : Int) : formatInt n = Ini.printInt 45 (fun c => c.toNat.toUInt16) n := by
  cases n <;> rfl

theorem wholeInt_formatInt (n : Int) : Ini.wholeInt digitValue 45 43 (formatInt n) = some n := by
  rw [formatInt_eq]
  exact decimal.wholeInt_printInt n

theorem mem_formatInt {n : Int} {u : UInt16} (hu : u ∈ formatInt n) :
    u = 45 ∨ (48 ≤ u ∧ u ≤ 57) := by
  rw [formatInt_eq] at hu
  rcases decimal.mem_printInt hu with hu | hu
  · exact Or.inl hu
  · right
    unfold digitValue at hu
    split at hu
    next h => exact h
    next => cases hu

theorem plain_formatInt {n : Int} {u : UInt16} (hu : u ∈ formatInt n) :
    blank u = false ∧ plainUnit u = true := by
  rcases mem_formatInt hu with rfl | ⟨hlow, hhigh⟩
  · decide
  · have hne : ∀ v : UInt16, v < 48 → u ≠ v := by
      rintro v hv rfl
      exact absurd hlow (UInt16.not_le.mpr hv)
    simp [blank, plainUnit, hne]

theorem oneLine_formatInt (n : Int) : OneLine (formatInt n) :=
  oneLine_iff.mpr fun _ hu => (plain_formatInt hu).2

/-- An integer that has been written is read as an unsigned 32-bit value. -/
theorem Profile.getInt_formatInt {F : Profile} {appName keyName : String} {default : CInt}
    {n : Int} (h : F.value (appName, keyName) = some (formatInt n)) :
    F.getInt appName keyName default = BitVec.ofInt 32 n := by
  have htrim : Ini.trim blank (formatInt n) = formatInt n :=
    Ini.trim_eq_self_of_forall fun u hu => (plain_formatInt hu).1
  unfold Profile.getInt
  split
  next s hs =>
    rw [h] at hs
    cases hs
    rw [htrim, Ini.leadingInt_of_wholeInt (wholeInt_formatInt n)]
    rfl
  next hs =>
    rw [h] at hs
    cases hs

/-- The text that is loaded where `t` has been saved. -/
def readSetting (t : WString) : WString := Ini.readText blank quote 149 t

/-- What is loaded after a save: the same numbers, and each string as it is
read where it was written; the file has kept everything else. -/
structure RoundTrip (config loaded : CAppConfig) (F F' : Profile) : Prop where
  port : loaded.mDbConfig.mPort = config.mDbConfig.mPort
  world : loaded.mPrizeConfig.mWorld = config.mPrizeConfig.mWorld
  charguid : loaded.mPrizeConfig.mCharguid = config.mPrizeConfig.mCharguid
  item : loaded.mPrizeConfig.mItem = config.mPrizeConfig.mItem
  count : loaded.mPrizeConfig.mCount = config.mPrizeConfig.mCount
  host : loaded.mDbConfig.mHost = readSetting config.mDbConfig.mHost
  name : loaded.mDbConfig.mName = readSetting config.mDbConfig.mName
  dbUsername : loaded.mDbConfig.mUsername = readSetting config.mDbConfig.mUsername
  password : loaded.mDbConfig.mPassword = readSetting config.mDbConfig.mPassword
  username : loaded.mPrizeConfig.mUsername = readSetting config.mPrizeConfig.mUsername
  others : ∀ k, k ∉ settingKeys → F'.value k = F.value k

theorem getInt_save {F : Profile} {config : CAppConfig} {appName keyName : String}
    {default : CInt} {n : Int} (h : ((appName, keyName), formatInt n) ∈ settings config) :
    (F.save config).getInt appName keyName default = BitVec.ofInt 32 n :=
  Profile.getInt_formatInt (save_setting h (oneLine_formatInt n))

theorem getInt_save_int (F : Profile) (config : CAppConfig) (appName keyName : String)
    (default n : CInt) (h : ((appName, keyName), formatInt n.toInt) ∈ settings config) :
    (F.save config).getInt appName keyName default = n := by
  rw [getInt_save h, BitVec.ofInt_toInt]

theorem getString_save {F : Profile} {config : CAppConfig} {appName keyName : String}
    {t : WString} (h : ((appName, keyName), t) ∈ stringSettings config)
    (hline : ∀ t ∈ strings config, OneLine t) :
    ((F.save config).getString appName keyName [] 150).text = readSetting t :=
  Profile.getString_text (save_value h (hline t (List.mem_map_of_mem (f := Prod.snd) h)))

theorem load_save {F : Profile} {config : CAppConfig} (hline : ∀ t ∈ strings config, OneLine t) :
    RoundTrip config (F.save config).load F (F.save config) where
  port := by
    have hport : (F.save config).getInt "db" "port" 3306 =
        BitVec.ofInt 32 config.mDbConfig.mPort.toNat := getInt_save (by simp [settings])
    have hlt := config.mDbConfig.mPort.isLt
    simp only [Profile.load, hport]
    apply BitVec.eq_of_toNat_eq
    simp only [BitVec.toNat_setWidth, BitVec.toNat_ofInt]
    omega
  world := getInt_save_int F config "prize" "world" 0 _ (by simp [settings])
  charguid := getInt_save_int F config "prize" "charguid" 0 _ (by simp [settings])
  item := getInt_save_int F config "prize" "item" 0 _ (by simp [settings])
  count := getInt_save_int F config "prize" "count" 0 _ (by simp [settings])
  host := getString_save (by simp [stringSettings]) hline
  name := getString_save (by simp [stringSettings]) hline
  dbUsername := getString_save (by simp [stringSettings]) hline
  password := getString_save (by simp [stringSettings]) hline
  username := getString_save (by simp [stringSettings]) hline
  others k hk := by
    rw [save_eq_writeAll]
    exact writeAll_frame (by rwa [map_fst_settings])

/-- The configuration loaded after a save has the numbers of the one saved, and
strings that come each from its own; no other value of the file is touched, and
no other file. -/
theorem saveToFile_loadFromFile (sv : Sql.Server) (cp : CodePage UInt16 UInt8)
    (filePath : String) (config : CAppConfig) (o o' : Nat → DeskChoice) (s : Desk)
    (hline : ∀ t ∈ strings config, OneLine t) :
    let s' := ((config.saveToFile filePath).run (desk sv cp) o () s).2.2
    RoundTrip config ((CAppConfig.loadFromFile filePath).run (desk sv cp) o' () s').1
      (s.files filePath) (s'.files filePath) ∧
    ∀ path, path ≠ filePath → s'.files path = s.files path := by
  intro s'
  have hfiles : s'.files = s.files.save config filePath := by simp only [s', saveToFile_run]
  rw [loadFromFile_run, hfiles, Files.save_self]
  exact ⟨load_save hline, fun path hpath => Files.save_of_ne hpath⟩

/-- Both ends of `int`, the largest port, and a name in `[db]` and in `[prize]`. -/
def extremeConfig : CAppConfig where
  mDbConfig :=
    { mHost := wide "localhost", mPort := 65535, mName := wide "tlbb", mUsername := wide "root",
      mPassword := wide " secret" }
  mPrizeConfig :=
    { mUsername := wide "admin", mWorld := BitVec.intMin 32, mCharguid := -1,
      mItem := BitVec.intMax 32, mCount := 1 }

theorem saveToFile_loadFromFile_extreme :
    let s' := ((extremeConfig.saveToFile "./config/config.ini").run (desk .exact asciiPage)
      (fun _ => .answered) () .empty).2.2
    RoundTrip extremeConfig ((CAppConfig.loadFromFile "./config/config.ini").run
      (desk .exact asciiPage) (fun _ => .answered) () s').1 .empty
      (s'.files "./config/config.ini") ∧
    ∀ path, path ≠ "./config/config.ini" → s'.files path = .empty :=
  saveToFile_loadFromFile .exact asciiPage "./config/config.ini" extremeConfig
    (fun _ => .answered) (fun _ => .answered) .empty (by decide)

end PrizeSender
