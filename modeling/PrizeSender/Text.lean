import PrizeSender.CodePage
import Mathlib.Data.List.TakeWhile
import Mathlib.Data.UInt

namespace PrizeSender

/-- `CString` of a Unicode build: UTF-16 code units. -/
abbrev WString := List UInt16

/-- `CStringA`, `std::string` and `const char*`. -/
abbrev Bytes := List UInt8

abbrev CInt := BitVec 32

/-- The `_T` literals, all of them in the basic plane. -/
def wide (s : String) : WString := s.toList.map fun c => c.toNat.toUInt16

def ascii (s : String) : Bytes := s.toList.map fun c => c.toNat.toUInt8

def strlen (s : Bytes) : Nat := (s.takeWhile (· ≠ 0)).length

/-- The part of a buffer that a reader of a C string sees. -/
def cString (s : Bytes) : Bytes := s.take (strlen s)

theorem cString_eq_self {s : Bytes} (h : 0 ∉ s) : cString s = s := by
  have hs : s.takeWhile (· ≠ 0) = s := by
    rw [List.takeWhile_eq_self_iff]
    intro b hb
    have hne : b ≠ 0 := fun h0 => h (h0 ▸ hb)
    simpa using hne
  rw [cString, strlen, hs, List.take_length]

/-- A system code page with the ASCII characters, fitting `Ā` to `A` as the
Western ones do and everything else to `?`. -/
def asciiPage : CodePage UInt16 UInt8 where
  code u := if u < 128 then some [u.toUInt8] else none
  fit u := if u = 0x100 then 65 else 63
  decode b := b.map UInt8.toUInt16
  fit_isSome u := by split <;> decide
  decode_code s hs := by
    induction s with
    | nil => rfl
    | cons u us ih =>
      have hu : u < 128 := by simpa using hs u (by simp)
      have hus := ih fun v hv => hs v (by simp [hv])
      have hcode : u.toUInt8.toUInt16 = u := by
        apply UInt16.toNat_inj.mp
        have : u.toNat < 128 := hu
        simp
        omega
      simpa [hu, hcode] using hus
  zero_notMem_code u b hu hb := by
    split at hb
    next hlt =>
      cases Option.some.inj hb
      have hlt : u.toNat < 128 := hlt
      have hpos : u.toNat ≠ 0 := fun h => hu (UInt16.toNat_inj.mp h)
      intro hmem
      have hz := congrArg UInt8.toNat (List.mem_singleton.mp hmem)
      simp at hz
      omega
    next => simp at hb
  fit_ne_zero u _ := by split <;> decide

def digitValue (u : UInt16) : Option Nat :=
  if 48 ≤ u ∧ u ≤ 57 then some (u.toNat - 48) else none

/-- The `Format("%d", n)` of an `int`. -/
def formatInt (n : Int) : WString :=
  match n with
  | .ofNat n => (Nat.toDigits 10 n).map fun c => c.toNat.toUInt16
  | .negSucc n => wide "-" ++ (Nat.toDigits 10 (n + 1)).map fun c => c.toNat.toUInt16

end PrizeSender
