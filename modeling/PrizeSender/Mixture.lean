import PrizeSender.Shuffle
import PrizeSender.Interleave
import PrizeSender.Desk
import Mathlib.Data.List.FinRange

/-! Instances of the program that are closed at the same time over one profile
file. -/

namespace PrizeSender

open Prog CTlPrizeSenderDlg

variable {κ : Type} [DecidableEq κ] {sv : Sql.Server} {cp : CodePage UInt16 UInt8}

abbrev Settings := List ((String × String) × WString)

abbrev DeskPool (κ : Type) := Pool UiCall UiCall.Reply κ Unit Desk Unit

/-- Each thread still has to write its settings. -/
def writers (rest : κ → Settings) (s : Desk) : DeskPool κ where
  threads i := { prog := writeSettings appConfigPath (rest i), own := () }
  shared := s

def closing (dlgs : κ → CTlPrizeSenderDlg) (s : Desk) : DeskPool κ where
  threads i := { prog := (dlgs i).onDestroy, own := () }
  shared := s

def closeAll (sv : Sql.Server) (cp : CodePage UInt16 UInt8) (dlgs : κ → CTlPrizeSenderDlg) (s : Desk)
    (schedule : List (κ × DeskChoice)) : DeskPool κ :=
  (closing dlgs s).interleave (fun _ => desk sv cp) schedule

variable {rest : κ → Settings} {s : Desk} {l : Settings}

omit [DecidableEq κ] in
theorem closing_eq (dlgs : κ → CTlPrizeSenderDlg) (s : Desk) :
    closing dlgs s = writers (fun i => settings (dlgs i).mAppConfig) s := rfl

theorem step_writers_nil {i : κ} (h : rest i = []) (y : DeskChoice) :
    (writers rest s).step (fun _ => desk sv cp) i y = writers rest s := by
  simp only [Pool.step, writers, h]
  rfl

theorem step_writers_cons {i : κ} {p : (String × String) × WString} {ps : Settings}
    (h : rest i = p :: ps) (y : DeskChoice) :
    (writers rest s).step (fun _ => desk sv cp) i y =
      writers (Function.update rest i ps)
        { s with files := s.files.write p.1.1 p.1.2 p.2 appConfigPath } := by
  have hthreads : Function.update (writers rest s).threads i ⟨writeSettings appConfigPath ps, ()⟩ =
      (writers (Function.update rest i ps) s).threads := by
    funext j
    by_cases hj : j = i
    · subst hj
      simp [writers]
    · simp [writers, Function.update_of_ne hj]
  simp only [Pool.step, writers, h]
  exact congrArg (Pool.mk · _) hthreads

omit [DecidableEq κ] in
theorem writers_ended {i : κ} : ((writers rest s).threads i).prog.result? = some () ↔ rest i = [] := by
  constructor
  · intro hend
    cases h : rest i with
    | nil => rfl
    | cons p ps =>
      simp only [writers, h] at hend
      cases hend
  · intro h
    simp only [writers, h]
    rfl

/-- A schedule that lets all of them end has written some merge of what they
had to write. -/
theorem interleave_writers (schedule : List (κ × DeskChoice)) :
    ∃ rest' l, (writers rest s).interleave (fun _ => desk sv cp) schedule =
      writers rest' { s with files := s.files.writeAll l appConfigPath } ∧
      ((∀ i, rest' i = []) → Shuffle rest l) := by
  induction schedule generalizing rest s with
  | nil => exact ⟨rest, [], rfl, Shuffle.nil⟩
  | cons x schedule ih =>
    rw [Pool.interleave]
    cases h : rest x.1 with
    | nil =>
      rw [step_writers_nil h]
      exact ih
    | cons p ps =>
      rw [step_writers_cons h]
      obtain ⟨rest', l, hpool, hl⟩ := ih
      exact ⟨rest', p :: l, hpool, fun hend => .cons h (hl hend)⟩

theorem exists_schedule_of_shuffle (h : Shuffle rest l) (y : DeskChoice) :
    ∃ schedule, (writers rest s).interleave (fun _ => desk sv cp) schedule =
      writers (fun _ => []) { s with files := s.files.writeAll l appConfigPath } := by
  induction h generalizing s with
  | nil h =>
    obtain rfl := funext h
    exact ⟨[], rfl⟩
  | @cons rest i p ps l h _ ih =>
    obtain ⟨schedule, hpool⟩ := ih
      (s := { s with files := s.files.write p.1.1 p.1.2 p.2 appConfigPath })
    refine ⟨(i, y) :: schedule, ?_⟩
    rw [Pool.interleave, step_writers_cons h]
    exact hpool

theorem writeAll_put {F : Profile} {ps : Settings} :
    (F.writeAll ps).value =
      ps.foldl (Shuffle.put Prod.fst fun p => some (firstLine p.2).text) F.value := by
  induction ps generalizing F with
  | nil => rfl
  | cons p ps ih => exact ih

theorem profile_ext {F F' : Profile} (h : F.value = F'.value) : F = F' := by
  cases F
  cases F'
  cases h
  rfl

/-- Instances that are closed at the same time can leave the config file with
each value that some instance would have left alone, and with no other; they
leave the other files as they are. -/
theorem closeAll_mixes (n : Nat) (sv : Sql.Server) (cp : CodePage UInt16 UInt8)
    (dlgs : Fin (n + 1) → CTlPrizeSenderDlg) (s : Desk) (fs : Files) :
    (∃ schedule, (∀ i, ((closeAll sv cp dlgs s schedule).threads i).prog.result? = some ()) ∧
        (closeAll sv cp dlgs s schedule).shared.files = fs) ↔
      (∃ choice : String × String → Fin (n + 1), ∀ k, (fs appConfigPath).value k =
        ((s.files appConfigPath).save (dlgs (choice k)).mAppConfig).value k) ∧
      ∀ path, path ≠ appConfigPath → fs path = s.files path := by
  have hkeys : settingKeys.Nodup := by decide
  have hmix : (∃ l, Shuffle (fun i => settings (dlgs i).mAppConfig) l ∧
      ((s.files appConfigPath).writeAll l).value = (fs appConfigPath).value) ↔
      ∃ choice : String × String → Fin (n + 1), ∀ k, (fs appConfigPath).value k =
        ((s.files appConfigPath).save (dlgs (choice k)).mAppConfig).value k := by
    simp only [writeAll_put, save_eq_writeAll]
    exact Shuffle.foldl_put_iff List.mem_finRange (List.nodup_finRange (n + 1)) hkeys
      fun _ => map_fst_settings
  rw [← hmix]
  constructor
  · rintro ⟨schedule, hend, rfl⟩
    unfold closeAll at hend ⊢
    rw [closing_eq] at hend ⊢
    obtain ⟨rest, l, hpool, hl⟩ := interleave_writers schedule
    rw [hpool] at hend ⊢
    simp only [writers, files_writeAll]
    refine ⟨⟨l, hl fun i => writers_ended.mp (hend i), ?_⟩, ?_⟩
    · rw [Function.update_self]
    · exact fun path hpath => Function.update_of_ne hpath _ _
  · rintro ⟨⟨l, hl, hvalue⟩, hothers⟩
    obtain ⟨schedule, hpool⟩ := exists_schedule_of_shuffle hl .answered
    refine ⟨schedule, ?_⟩
    unfold closeAll
    rw [closing_eq, hpool]
    refine ⟨fun i => writers_ended.mpr rfl, ?_⟩
    change s.files.writeAll l appConfigPath = fs
    rw [files_writeAll, profile_ext hvalue]
    exact (Function.eq_update_iff.mpr ⟨rfl, hothers⟩).symm

end PrizeSender
