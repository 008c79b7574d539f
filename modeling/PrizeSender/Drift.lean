import PrizeSender.Lifetime
import PrizeSender.Restarts

namespace PrizeSender

open Prog

variable {sv : Sql.Server} {cp : CodePage UInt16 UInt8} {ddxInt : WString → Option CInt}
variable {config config' : CAppConfig} {o : Nat → Nat → DeskChoice} {s : Desk}

/-- The settings that are no strings. -/
def CAppConfig.numbers (config : CAppConfig) : BitVec 16 × CInt × CInt × CInt × CInt :=
  (config.mDbConfig.mPort, config.mPrizeConfig.mWorld, config.mPrizeConfig.mCharguid,
    config.mPrizeConfig.mItem, config.mPrizeConfig.mCount)

theorem numbers_reread : config.reread.numbers = config.numbers := rfl

theorem strings_reread : strings config.reread = (strings config).map readSetting := rfl

theorem config_eq (hnumbers : config.numbers = config'.numbers)
    (hstrings : strings config = strings config') : config = config' := by
  obtain ⟨⟨host, port, name, dbUsername, password⟩, username, world, charguid, item, count⟩ := config
  obtain ⟨⟨host', port', name', dbUsername', password'⟩, username', world', charguid', item',
    count'⟩ := config'
  simp only [CAppConfig.numbers, Prod.mk.injEq] at hnumbers
  simp only [strings, stringSettings, List.map_cons, List.map_nil, List.cons.injEq,
    and_true] at hstrings
  simp only [CAppConfig.mk.injEq, CAppConfigDb.mk.injEq, CAppConfigPrize.mk.injEq]
  tauto

/-- What a session without actions finds is what the one before found, read once
more. -/
theorem reopened_load (n : Nat) :
    (reopened sv cp ddxInt o s (n + 1)).appConfig.load =
      (reopened sv cp ddxInt o s n).appConfig.load.reread := by
  rw [appConfig_reopened, load_save_eq oneLine_load]

theorem strings_reopened (n k : Nat) :
    strings (reopened sv cp ddxInt o s (n + k)).appConfig.load =
      (strings (reopened sv cp ddxInt o s n).appConfig.load).map readSetting^[k] := by
  induction k with
  | zero => simp
  | succ k ih =>
    rw [← Nat.add_assoc, reopened_load, strings_reread, ih, List.map_map, Function.iterate_succ']

theorem length_loaded {F : Profile} : ∀ t ∈ strings F.load, t.length ≤ 149 := by
  have hstring : ∀ appName keyName,
      (F.getString appName keyName [] 150).text.length ≤ 149 := by
    intro appName keyName
    unfold Profile.getString
    split
    next s _ => exact List.length_take_le _ _
    next => exact Nat.zero_le _
  simp [strings, stringSettings, Profile.load, hstring]

/-- A string is read with at most 149 characters, and a session takes two of
them or keeps it. -/
theorem kept_reopened {n : Nat} (hn : 149 ≤ 2 * n) :
    ∀ t ∈ strings (reopened sv cp ddxInt o s n).appConfig.load, KeptSetting t := by
  intro t ht
  have hread : strings (reopened sv cp ddxInt o s (0 + n)).appConfig.load =
      (strings s.appConfig.load).map readSetting^[n] := strings_reopened 0 n
  rw [Nat.zero_add] at hread
  rw [hread] at ht
  obtain ⟨t₀, ht₀, rfl⟩ := List.mem_map.mp ht
  have hlen := length_loaded t₀ ht₀
  exact Ini.kept_iterate n hlen (by omega)

theorem numbers_reopened (n : Nat) :
    (reopened sv cp ddxInt o s n).appConfig.load.numbers = s.appConfig.load.numbers := by
  induction n with
  | zero => rfl
  | succ n ih => rw [reopened_load, numbers_reread, ih]

theorem reopened_settled {n : Nat} (hn : 149 ≤ 2 * n) (k : Nat) :
    (reopened sv cp ddxInt o s (n + k)).appConfig.load = (reopened sv cp ddxInt o s n).appConfig.load := by
  apply config_eq
  · rw [numbers_reopened, numbers_reopened]
  · have hfixed : ∀ t ∈ strings (reopened sv cp ddxInt o s n).appConfig.load, readSetting^[k] t = t :=
      fun t ht => Function.iterate_fixed (Ini.readText_eq_self_iff.mpr (kept_reopened hn t ht)) k
    rw [strings_reopened, List.map_congr_left hfixed, List.map_id']

/-- The configuration that a session loads. -/
def loadedConfig (sv : Sql.Server) (cp : CodePage UInt16 UInt8) (o : Nat → DeskChoice)
    (s : Desk) : CAppConfig :=
  ((CAppConfig.loadFromFile CTlPrizeSenderDlg.appConfigPath).run (desk sv cp) o () s).1

theorem loadedConfig_eq {o : Nat → DeskChoice} : loadedConfig sv cp o s = s.appConfig.load := rfl

/-- How what is loaded drifts when the program is only opened and closed; the
sessions are counted from 0. -/
structure Settles (loaded : Nat → CAppConfig) (n : Nat) : Prop where
  numbers : ∀ k, (loaded k).numbers = (loaded 0).numbers
  shrinks : ∀ k, List.Forall₂ List.Sublist (strings (loaded (k + 1))) (strings (loaded k))
  kept : ∀ t ∈ strings (loaded n), KeptSetting t
  settled : ∀ k, loaded (n + k) = loaded n

/-- From any file on, while the program is only opened and closed the numbers
never change and the strings only lose characters, and after 75 sessions nothing
changes any more. -/
theorem reopened_settles (sv : Sql.Server) (cp : CodePage UInt16 UInt8)
    (ddxInt : WString → Option CInt) (o : Nat → Nat → DeskChoice) (s : Desk) :
    Settles (fun n => loadedConfig sv cp (o n) (reopened sv cp ddxInt o s n)) 75 := by
  simp only [loadedConfig_eq]
  refine ⟨fun _ => numbers_reopened _, ?_, kept_reopened (by omega), reopened_settled (by omega)⟩
  intro k
  simp only [reopened_load, strings_reread, List.forall₂_map_left_iff]
  exact List.forall₂_same.mpr fun t _ => Ini.readText_sublist

end PrizeSender
