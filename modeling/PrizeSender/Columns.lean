import PrizeSender.Sql
import Mathlib.Algebra.Group.Int.Defs

/-! The values a column holds, and what a server makes of the others. -/

namespace Sql

inductive SqlMode where
  | strict
  | lenient
  deriving DecidableEq, Repr

/-- The characters of a byte string, as far as the width of a column goes. -/
structure Charset where
  length : List UInt8 → Nat
  cut : Nat → List UInt8 → List UInt8
  cut_of_length_le : ∀ {n b}, length b ≤ n → cut n b = b
  length_cut_le : ∀ n b, length (cut n b) ≤ n

namespace Charset

variable {cs : Charset} {n : Nat} {b : List UInt8}

theorem cut_eq_self_iff : cs.cut n b = b ↔ cs.length b ≤ n := by
  constructor
  · intro h
    rw [← h]
    exact cs.length_cut_le n b
  · exact cs.cut_of_length_le

def singleByte : Charset where
  length := List.length
  cut := List.take
  cut_of_length_le h := List.take_of_length_le h
  length_cut_le n b := List.length_take_le n b

end Charset

/-- The nearest integer in a range. -/
def clamp (lo hi i : Int) : Int := max lo (min hi i)

theorem clamp_eq_self_iff {lo hi i : Int} (h : lo ≤ hi) : clamp lo hi i = i ↔ lo ≤ i ∧ i ≤ hi := by
  unfold clamp
  omega

/-- The value of a column nearest to the one given; a value of another kind has
none. -/
def ColumnType.nearest (cs : Charset) : ColumnType → Value → Option Value
  | .varchar width, .text b => some (.text (cs.cut width b))
  | .int, .int i => some (.int (clamp (-2 ^ 31) (2 ^ 31 - 1) i))
  | .intUnsigned, .int i => some (.int (clamp 0 (2 ^ 32 - 1) i))
  | .smallint, .int i => some (.int (clamp (-2 ^ 15) (2 ^ 15 - 1) i))
  | .bigint, .int i => some (.int (clamp (-2 ^ 63) (2 ^ 63 - 1) i))
  | _, _ => none

/-- The column holds the value as it is given. -/
def ColumnType.Holds (cs : Charset) (type : ColumnType) (v : Value) : Prop :=
  type.nearest cs v = some v

section

variable {cs : Charset} {b : List UInt8} {i : Int}

theorem holds_varchar_iff {width : Nat} :
    (ColumnType.varchar width).Holds cs (.text b) ↔ cs.length b ≤ width := by
  simp [ColumnType.Holds, ColumnType.nearest, Charset.cut_eq_self_iff]

theorem holds_int_iff : ColumnType.int.Holds cs (.int i) ↔ -2 ^ 31 ≤ i ∧ i ≤ 2 ^ 31 - 1 := by
  simp only [ColumnType.Holds, ColumnType.nearest, Option.some.injEq, Value.int.injEq]
  exact clamp_eq_self_iff (by omega)

theorem holds_intUnsigned_iff :
    ColumnType.intUnsigned.Holds cs (.int i) ↔ 0 ≤ i ∧ i ≤ 2 ^ 32 - 1 := by
  simp only [ColumnType.Holds, ColumnType.nearest, Option.some.injEq, Value.int.injEq]
  exact clamp_eq_self_iff (by omega)

theorem holds_int (x : BitVec 32) : ColumnType.int.Holds cs (.int x.toInt) := by
  have := BitVec.toInt_lt (x := x)
  have := BitVec.le_toInt x
  exact holds_int_iff.mpr (by omega)

theorem holds_intUnsigned (x : BitVec 32) :
    ColumnType.intUnsigned.Holds cs (.int x.toInt) ↔ 0 ≤ x.toInt := by
  have := BitVec.toInt_lt (x := x)
  rw [holds_intUnsigned_iff]
  omega

end

/-- A strict server refuses a value that its column does not hold, a lenient
one stores the nearest value. -/
def Server.ofMode (cs : Charset) (mode : SqlMode) (same : Value → Value → Bool) : Server where
  convert c v := do
    let w ← c.type.nearest cs v
    if w = v ∨ mode = .lenient then some w else none
  same := same

/-- A value that is stored is the one given when the server is strict, and
otherwise when its column holds it. -/
theorem ofMode_convert {cs : Charset} {mode : SqlMode} {same : Value → Value → Bool} {c : Column}
    {v w : Value} (h : (Server.ofMode cs mode same).convert c v = some w) :
    w = v ↔ mode = .strict ∨ c.type.Holds cs v := by
  simp only [Server.ofMode, Option.bind_eq_bind, Option.bind_eq_some_iff] at h
  obtain ⟨w', hw', h⟩ := h
  split at h
  next hc =>
    cases h
    rw [ColumnType.Holds, hw', Option.some.injEq]
    rcases hc with hc | hc
    · simp [hc]
    · simp [hc]
  next => cases h

/-- A column holds what it was given when the server is strict, and otherwise
when the value fits. -/
theorem stored_iff {cs : Charset} {mode : SqlMode} {same : Value → Value → Bool}
    {columns : List Column} {name : String} {v : Value} {c : Column} {row : Row}
    (h : (Server.ofMode cs mode same).Stored columns row name v)
    (hc : columns.find? (fun c => name == c.name) = some c) :
    row.lookup name = some v ↔ mode = .strict ∨ c.type.Holds cs v := by
  obtain ⟨c', w, hc', hw, hl⟩ := h
  cases hc.symm.trans hc'
  rw [hl, Option.some.injEq]
  exact ofMode_convert hw

end Sql
