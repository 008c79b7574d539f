import Mathlib.Data.List.DropRight
import Mathlib.Logic.Function.Iterate

/-! The text of a value in a profile file: how it is read, and which text is
read back as it was written. -/

namespace Ini

variable {α : Type} [DecidableEq α]

/-- Without the blanks around it. -/
def trim (blank : α → Bool) (s : List α) : List α := (s.dropWhile blank).rdropWhile blank

/-- Between two equal quotes. -/
def Enclosed (quote : α → Bool) (s : List α) : Prop :=
  2 ≤ s.length ∧ s.head? = s.getLast? ∧ s.head?.any quote

instance {quote : α → Bool} {s : List α} : Decidable (Enclosed quote s) :=
  inferInstanceAs (Decidable (_ ∧ _ ∧ _))

def unquote (quote : α → Bool) (s : List α) : List α :=
  if Enclosed quote s then s.tail.dropLast else s

/-- Trimmed, unquoted and cut to a buffer's length. -/
def readText (blank quote : α → Bool) (room : Nat) (s : List α) : List α :=
  (unquote quote (trim blank s)).take room

variable {blank quote : α → Bool} {room : Nat} {s : List α}

omit [DecidableEq α] in
theorem trim_sublist : (trim blank s).Sublist s :=
  (List.rdropWhile_prefix blank _).sublist.trans (List.dropWhile_sublist blank)

omit [DecidableEq α] in
theorem trim_eq_self_iff :
    trim blank s = s ↔ (∀ u, s.head? = some u → blank u = false) ∧
      (∀ u, s.getLast? = some u → blank u = false) := by
  constructor
  · intro h
    have hfront : s.dropWhile blank = s := by
      apply (List.dropWhile_sublist blank).eq_of_length_le
      have hle := (List.rdropWhile_prefix blank (s.dropWhile blank)).length_le
      rw [← trim, h] at hle
      exact hle
    have hback : s.rdropWhile blank = s := by
      rw [trim, hfront] at h
      exact h
    constructor
    · intro u hu
      obtain ⟨tail, rfl⟩ := List.head?_eq_some_iff.mp hu
      have hn := List.dropWhile_eq_self_iff.mp hfront (by simp)
      simpa using hn
    · intro u hu
      obtain ⟨front, rfl⟩ := List.getLast?_eq_some_iff.mp hu
      have hn := List.rdropWhile_eq_self_iff.mp hback (by simp)
      simpa using hn
  · rintro ⟨hhead, hlast⟩
    have hfront : s.dropWhile blank = s := by
      apply List.dropWhile_eq_self_iff.mpr
      intro hl
      have h0 : s.head? = some s[0] := by simp [List.head?_eq_getElem?]
      simpa using hhead _ h0
    rw [trim, hfront]
    apply List.rdropWhile_eq_self_iff.mpr
    intro hl
    have hn := hlast _ (List.getLast?_eq_some_getLast hl)
    simp [hn]

omit [DecidableEq α] in
theorem trim_eq_self_of_forall (h : ∀ u ∈ s, blank u = false) : trim blank s = s :=
  trim_eq_self_iff.mpr
    ⟨fun u hu => h u (List.mem_of_head? hu), fun u hu => h u (List.mem_of_getLast? hu)⟩

theorem unquote_sublist : (unquote quote s).Sublist s := by
  unfold unquote
  split
  next => exact (List.dropLast_sublist _).trans (List.tail_sublist s)
  next => exact List.Sublist.refl s

theorem unquote_eq_self_iff : unquote quote s = s ↔ ¬ Enclosed quote s := by
  unfold unquote
  split
  next h =>
    refine ⟨fun heq => ?_, fun hn => absurd h hn⟩
    have hlen := congrArg List.length heq
    have h2 := h.1
    simp at hlen
    omega
  next h => exact ⟨fun _ => h, fun _ => rfl⟩

theorem readText_sublist : (readText blank quote room s).Sublist s :=
  (List.take_sublist _ _).trans (unquote_sublist.trans trim_sublist)

/-- Text that is read back as it was written. -/
structure Kept (blank quote : α → Bool) (room : Nat) (s : List α) : Prop where
  fits : s.length ≤ room
  front : ∀ u, s.head? = some u → blank u = false
  back : ∀ u, s.getLast? = some u → blank u = false
  bare : ¬ Enclosed quote s

theorem readText_eq_self_iff : readText blank quote room s = s ↔ Kept blank quote room s := by
  constructor
  · intro h
    have hlen : s.length ≤ (unquote quote (trim blank s)).length ∧ s.length ≤ room := by
      have := congrArg List.length h
      simp only [readText, List.length_take] at this
      omega
    have htrim : trim blank s = s :=
      trim_sublist.eq_of_length_le (hlen.1.trans unquote_sublist.length_le)
    obtain ⟨hfront, hback⟩ := trim_eq_self_iff.mp htrim
    refine ⟨hlen.2, hfront, hback, fun he => ?_⟩
    rw [htrim, unquote, if_pos he] at hlen
    have h2 := he.1
    have := hlen.1
    simp at this
    omega
  · rintro ⟨hfits, hfront, hback, hbare⟩
    rw [readText, trim_eq_self_iff.mpr ⟨hfront, hback⟩, unquote_eq_self_iff.mpr hbare,
      List.take_of_length_le hfits]

instance : Decidable (Kept blank quote room s) := decidable_of_iff _ readText_eq_self_iff

omit [DecidableEq α] in
/-- What is trimmed has no blank at its ends. -/
theorem trim_trim : trim blank (trim blank s) = trim blank s := by
  apply trim_eq_self_iff.mpr
  constructor
  · intro u hu
    obtain ⟨tail, htail⟩ := List.head?_eq_some_iff.mp hu
    obtain ⟨rest, hrest⟩ := List.rdropWhile_prefix blank (s.dropWhile blank)
    rw [← trim, htail] at hrest
    have hfront := List.dropWhile_idempotent blank s
    rw [← hrest] at hfront
    by_contra hb
    rw [List.cons_append, List.dropWhile_cons_of_pos (by simpa using hb)] at hfront
    have hlen := congrArg List.length hfront
    have hle : ((tail ++ rest).dropWhile blank).length ≤ (tail ++ rest).length :=
      (List.dropWhile_sublist blank).length_le
    rw [List.length_cons] at hlen
    omega
  · intro u hu
    obtain ⟨front, hfront⟩ := List.getLast?_eq_some_iff.mp hu
    have hne : (s.dropWhile blank).rdropWhile blank ≠ [] := by
      rw [← trim, hfront]
      simp
    have hlast := List.rdropWhile_last_not blank (s.dropWhile blank) hne
    have hu' : ((s.dropWhile blank).rdropWhile blank).getLast hne = u :=
      Option.some.inj ((List.getLast?_eq_some_getLast hne).symm.trans hu)
    rw [hu'] at hlast
    simpa using hlast

/-- Reading a text that fits gives one that is kept, or takes two quotes off. -/
theorem kept_or_shrinks (h : s.length ≤ room) : Kept blank quote room (readText blank quote room s) ∨
    (readText blank quote room s).length + 2 ≤ s.length := by
  have hle : (trim blank s).length ≤ s.length := trim_sublist.length_le
  by_cases he : Enclosed quote (trim blank s)
  · right
    have h2 := he.1
    rw [readText, unquote, if_pos he, List.length_take, List.length_dropLast, List.length_tail]
    omega
  · left
    have htrim : trim blank (trim blank s) = trim blank s := trim_trim
    obtain ⟨hfront, hback⟩ := trim_eq_self_iff.mp htrim
    rw [readText, unquote_eq_self_iff.mpr he, List.take_of_length_le (by omega)]
    exact ⟨by omega, hfront, hback, he⟩

/-- Text that fits is kept after it has been read as often as it has pairs of
characters. -/
theorem kept_iterate (n : Nat) (h : s.length ≤ room) (hn : s.length ≤ 2 * n) :
    Kept blank quote room ((readText blank quote room)^[n] s) := by
  induction n generalizing s with
  | zero =>
    obtain rfl : s = [] := List.length_eq_zero_iff.mp (by omega)
    exact ⟨by simp, by simp, by simp, by simp [Enclosed]⟩
  | succ n ih =>
    rw [Function.iterate_succ_apply]
    rcases kept_or_shrinks h with hkept | hshrinks
    · rw [Function.iterate_fixed (readText_eq_self_iff.mpr hkept)]
      exact hkept
    · exact ih (by omega) (by omega)

/-! Decimal integers. -/

/-- What is left after an optional sign, and whether it was a minus. -/
def sign (minus plus : α) : List α → Bool × List α
  | [] => (false, [])
  | u :: s => if u = minus then (true, s) else if u = plus then (false, s) else (false, u :: s)

/-- The integer a text starts with. -/
def leadingInt (value : α → Option Nat) (minus plus : α) (s : List α) : Option Int :=
  let (negative, rest) := sign minus plus s
  let digits := rest.takeWhile fun u => (value u).isSome
  let n := digits.foldl (fun n u => 10 * n + (value u).getD 0) 0
  if digits = [] then none else some (if negative then -(n : Int) else n)

/-- The integer a text is. -/
def wholeInt (value : α → Option Nat) (minus plus : α) (s : List α) : Option Int :=
  if (sign minus plus s).2.all (fun u => (value u).isSome) then leadingInt value minus plus s
  else none

theorem leadingInt_of_wholeInt {value : α → Option Nat} {minus plus : α} {n : Int}
    (h : wholeInt value minus plus s = some n) : leadingInt value minus plus s = some n := by
  unfold wholeInt at h
  split at h
  next => exact h
  next => cases h

/-- Characters that `unit` writes and `value` reads as the ten digits, and two
signs that are no digits. -/
structure Decimal (value : α → Option Nat) (minus plus : α) (unit : Char → α) : Prop where
  digit : ∀ c : Char, c.isDigit → value (unit c) = some (c.toNat - 48)
  minus : value minus = none
  plus : value plus = none

def printInt (minus : α) (unit : Char → α) : Int → List α
  | .ofNat n => (Nat.toDigits 10 n).map unit
  | .negSucc n => minus :: (Nat.toDigits 10 (n + 1)).map unit

section

variable {value : α → Option Nat} {minus plus : α} {unit : Char → α} {ds : List Char}

omit [DecidableEq α] in
theorem Decimal.isSome_value (h : Decimal value minus plus unit) (hds : ∀ c ∈ ds, c.isDigit) :
    ∀ u ∈ ds.map unit, (value u).isSome := by
  intro u hu
  obtain ⟨c, hc, rfl⟩ := List.mem_map.mp hu
  rw [h.digit c (hds c hc)]
  rfl

omit [DecidableEq α] in
theorem Decimal.foldl_digits (h : Decimal value minus plus unit) (hds : ∀ c ∈ ds, c.isDigit)
    (n : Nat) :
    (ds.map unit).foldl (fun n u => 10 * n + (value u).getD 0) n = Nat.ofDigitChars 10 ds n := by
  induction ds generalizing n with
  | nil => rfl
  | cons c ds ih =>
    have hc := h.digit c (hds c List.mem_cons_self)
    have hrest := ih fun d hd => hds d (List.mem_cons_of_mem c hd)
    rw [List.map_cons, List.foldl_cons, hrest, hc, Nat.ofDigitChars_cons]
    rfl

theorem Decimal.sign_digits (h : Decimal value minus plus unit) (hds : ∀ c ∈ ds, c.isDigit) :
    sign minus plus (ds.map unit) = (false, ds.map unit) := by
  cases ds with
  | nil => rfl
  | cons c ds =>
    have hc := h.digit c (hds c List.mem_cons_self)
    have hne : ∀ u, value u = none → unit c ≠ u := by
      rintro u hu rfl
      rw [hu] at hc
      cases hc
    simp [sign, hne minus h.minus, hne plus h.plus]

theorem isDigit_toDigits {n : Nat} : ∀ c ∈ Nat.toDigits 10 n, c.isDigit :=
  fun _ hc => Nat.isDigit_of_mem_toDigits (by decide) (by decide) hc

/-- A text that is a sign and the digits of `n` is the integer `n` with that
sign. -/
theorem Decimal.wholeInt_digits (h : Decimal value minus plus unit) {negative : Bool} {n : Nat}
    (hs : sign minus plus s = (negative, (Nat.toDigits 10 n).map unit)) :
    wholeInt value minus plus s = some (if negative then -(n : Int) else n) := by
  have hsome := h.isSome_value (isDigit_toDigits (n := n))
  have hall : (sign minus plus s).2.all (fun u => (value u).isSome) := by
    rw [hs]
    exact List.all_eq_true.mpr hsome
  have hdigits : ((Nat.toDigits 10 n).map unit).takeWhile (fun u => (value u).isSome) =
      (Nat.toDigits 10 n).map unit :=
    List.takeWhile_eq_self_iff.mpr hsome
  have hne : (Nat.toDigits 10 n).map unit ≠ [] := by
    simp [Nat.toDigits_ne_nil]
  rw [wholeInt, if_pos hall]
  simp only [leadingInt, hs, hdigits, if_neg hne, h.foldl_digits isDigit_toDigits,
    Nat.ofDigitChars_ten_toDigits]

theorem Decimal.wholeInt_printInt (h : Decimal value minus plus unit) (n : Int) :
    wholeInt value minus plus (printInt minus unit n) = some n := by
  cases n with
  | ofNat n => exact h.wholeInt_digits (h.sign_digits isDigit_toDigits)
  | negSucc n =>
    have hs : sign minus plus (printInt minus unit (.negSucc n)) =
        (true, (Nat.toDigits 10 (n + 1)).map unit) := by
      simp [sign, printInt]
    rw [h.wholeInt_digits hs]
    rfl

omit [DecidableEq α] in
theorem Decimal.mem_printInt (h : Decimal value minus plus unit) {n : Int} {u : α}
    (hu : u ∈ printInt minus unit n) : u = minus ∨ (value u).isSome := by
  cases n with
  | ofNat n => exact Or.inr (h.isSome_value isDigit_toDigits u hu)
  | negSucc n =>
    rcases List.mem_cons.mp hu with hu | hu
    · exact Or.inl hu
    · exact Or.inr (h.isSome_value isDigit_toDigits u hu)

end

end Ini
