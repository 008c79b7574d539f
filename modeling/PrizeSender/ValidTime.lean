import PrizeSender.Race
import PrizeSender.Columns

namespace PrizeSender

open Prog Sql

/-- How many of the moments `2 ^ 31 + k * 2 ^ 32`, at which `timestampU4` starts
over from the least `int`, have come by the time `t`. -/
def wraps (t : BitVec 64) : Int := (t.toInt + 2 ^ 31) / 2 ^ 32

theorem timestampU4_toInt (t : BitVec 64) :
    (timestampU4 t).toInt = t.toInt - 2 ^ 32 * wraps t := by
  have hmask : (timestampU4 t).toNat = t.toNat % 2 ^ 32 := by
    have hand := Nat.and_two_pow_sub_one_eq_mod t.toNat 32
    simp only [timestampU4, BitVec.toNat_setWidth, BitVec.toNat_and]
    change (t.toNat &&& (2 ^ 32 - 1)) % 2 ^ 32 = _
    rw [hand, Nat.mod_mod]
  have hlt := t.isLt
  rw [wraps, BitVec.toInt_eq_toNat_cond, BitVec.toInt_eq_toNat_cond, hmask]
  split <;> split <;> omega

/-- The clock stands still, or it advances by more than `2 ^ 32` seconds for
each start over that it passes. -/
def InStep (t t' : BitVec 64) : Prop :=
  t = t' ∨ 2 ^ 32 * (wraps t' - wraps t) < t'.toInt - t.toInt

theorem inStep_iff {t t' : BitVec 64} :
    InStep t t' ↔ t = t' ∨ (timestampU4 t).toInt < (timestampU4 t').toInt := by
  rw [InStep, timestampU4_toInt, timestampU4_toInt]
  apply or_congr_right
  omega

theorem inStep_of_lt {t t' : BitVec 64} (h0 : 0 ≤ t.toInt) (hle : t.toInt ≤ t'.toInt)
    (hlt : t'.toInt < 2 ^ 31) : InStep t t' := by
  rcases eq_or_lt_of_le hle with heq | hlt'
  · exact Or.inl (BitVec.toInt_inj.mp heq)
  · right
    unfold wraps
    omega

/-- Readings that do not decrease are in step as long as they are below
`2 ^ 31`. -/
theorem isChain_inStep_of_lt {ts : List (BitVec 64)}
    (hrange : ∀ t ∈ ts, 0 ≤ t.toInt ∧ t.toInt < 2 ^ 31)
    (hle : ts.IsChain fun t t' => t.toInt ≤ t'.toInt) : ts.IsChain InStep := by
  apply hle.imp_of_mem_imp
  intro t t' ht ht' h
  exact inStep_of_lt (hrange t ht).1 h (hrange t' ht').2

theorem InStep.trans {t u v : BitVec 64} (h : InStep t u) (h' : InStep u v) : InStep t v := by
  rw [inStep_iff] at *
  rcases h with rfl | h
  · exact h'
  · rcases h' with rfl | h'
    · exact Or.inr h
    · exact Or.inr (h.trans h')

instance : Trans InStep InStep InStep := ⟨InStep.trans⟩

instance {t t' : BitVec 64} : Decidable (InStep t t') := inferInstanceAs (Decidable (_ ∨ _))

def validtime (row : Row) : Option Int :=
  match row.lookup "validtime" with
  | some (.int v) => some v
  | _ => none

/-- The times of validity do not decrease from one prize to the next, and those
of prizes sent at different times differ. -/
def TimeOrdered {κ : Type} (clock : κ → BitVec 64) (added : List (κ × Row)) : Prop :=
  added.Pairwise fun a b => ∃ v ∈ validtime a.2, ∃ w ∈ validtime b.2,
    v ≤ w ∧ (clock a.1 ≠ clock b.1 → v ≠ w)

instance {κ : Type} {clock : κ → BitVec 64} {added : List (κ × Row)} :
    Decidable (TimeOrdered clock added) :=
  inferInstanceAs (Decidable (added.Pairwise _))

section

variable {κ : Type} {clock : κ → BitVec 64} {added : List (κ × Row)}

theorem timeOrdered_iff (h : ∀ a ∈ added, validtime a.2 = some (timestampU4 (clock a.1)).toInt) :
    TimeOrdered clock added ↔ (added.map fun a => clock a.1).IsChain InStep := by
  rw [List.isChain_iff_pairwise, List.pairwise_map]
  apply List.Pairwise.iff_of_mem
  intro a b ha hb
  rw [h a ha, h b hb, inStep_iff]
  simp only [Option.mem_def, Option.some.injEq, exists_eq_left']
  constructor
  · rintro ⟨hle, hne⟩
    by_cases ht : clock a.1 = clock b.1
    · exact Or.inl ht
    · exact Or.inr (lt_of_le_of_ne hle (hne ht))
  · rintro (ht | hlt)
    · rw [ht]
      exact ⟨le_rfl, fun hne => absurd rfl hne⟩
    · exact ⟨hlt.le, fun _ => hlt.ne⟩

end

/-- Whatever becomes of its calls, a sender reads its own clock. -/
def Sender.clocked (p : Sender) (x : Choice) : Choice := { x with clock := p.clock }

/-- Senders on any number of machines; those of one program come one after the
other, which is one of the schedules. -/
def sendAll {κ : Type} [DecidableEq κ] (sv : Sql.Server) (cp : CodePage UInt16 UInt8)
    (senders : κ → Sender) (db : Database) (schedule : List (κ × Choice)) : SenderPool κ :=
  (startPool cp senders db).interleave (fun i x => serve sv i ((senders i).clocked x)) schedule

section

variable {cs : Charset} {mode : SqlMode} {same : Value → Value → Bool}
variable {cp : CodePage UInt16 UInt8} {db : Database} {p : Sender} {row : Row}

theorem IsPrizeOf.validtime_eq (h : IsPrizeOf (.ofMode cs mode same) cp db p row)
    (hcolumn : ∀ tb c, db "account_prize" = some tb → tb.column? "validtime" = some c →
      c.type = .int) : validtime row = some (timestampU4 p.clock).toInt := by
  have hstored := h ("validtime", .int (timestampU4 p.clock).toInt) (by simp [insertGiven])
  obtain ⟨c, _, hc, _⟩ := id hstored
  have htype : c.type = .int := by
    cases hdb : db "account_prize" with
    | some tb =>
      rw [prizeTable, hdb] at hc
      exact hcolumn tb c hdb hc
    | none =>
      rw [prizeTable, hdb] at hc
      cases hc
      rfl
  have hholds : c.type.Holds cs (.int (timestampU4 p.clock).toInt) := by
    rw [htype]
    exact holds_int _
  rw [validtime, (stored_iff hstored hc).mpr (Or.inr hholds)]

end

section

variable {n : Nat} {cs : Charset} {mode : SqlMode} {same : Value → Value → Bool}
variable {cp : CodePage UInt16 UInt8} {senders : Fin n → Sender} {db dbEnd : Database}
variable {log : List (LogEntry (Fin n))}

theorem Ended.timeOrdered_iff_inStep
    (h : Ended (.ofMode cs mode same) cp (fun i => (senders i).clocked) senders db log dbEnd
      fun _ => .ok ())
    (hcolumn : ∀ tb c, db "account_prize" = some tb → tb.column? "validtime" = some c →
      c.type = .int) :
    TimeOrdered (fun i => (senders i).clock) (addedRows log) ↔
      ((addedRows log).map fun a => (senders a.1).clock).IsChain InStep := by
  obtain ⟨_, hprizes⟩ := h.addedRows_spec (fun _ _ => rfl) fun _ => rfl
  apply timeOrdered_iff
  intro a ha
  exact (hprizes a ha).validtime_eq hcolumn

end

/-- In every run of sends that have all succeeded the times of validity are in
order, in the order of the INSERTs, if and only if from each INSERT to the next
the clock readings are in step. -/
theorem sendAll_timeOrdered_iff {n : Nat} (cs : Charset) (mode : SqlMode)
    (same : Value → Value → Bool) (cp : CodePage UInt16 UInt8) (senders : Fin n → Sender)
    (db : Database) (schedule : List (Fin n × Choice))
    (hcolumn : ∀ tb c, db "account_prize" = some tb → tb.column? "validtime" = some c →
      c.type = .int) :
    let pool := sendAll (.ofMode cs mode same) cp senders db schedule
    let added := addedRows pool.shared.log
    (∀ i, (pool.threads i).prog.result? = some (.ok ())) →
    (added.map Prod.fst).Perm (List.finRange n) ∧
      rowsOf pool.shared.db "account_prize" =
        rowsOf db "account_prize" ++ added.map Prod.snd ∧
      (TimeOrdered (fun i => (senders i).clock) added ↔
        (added.map fun a => (senders a.1).clock).IsChain InStep) := by
  intro pool added hsent
  have h : Ended (.ofMode cs mode same) cp (fun i => (senders i).clocked) senders db
      pool.shared.log pool.shared.db fun _ => .ok () := pool_ended hsent
  obtain ⟨hcount, _⟩ := h.addedRows_spec (fun _ _ => rfl) fun _ => rfl
  refine ⟨?_, rowsOf_addedRows h.replays, h.timeOrdered_iff_inStep hcolumn⟩
  apply List.perm_iff_count.mpr
  intro i
  rw [hcount i, List.count_finRange]

/-- As long as the clocks read less than `2 ^ 31` and do not go back from INSERT
to INSERT, the times of validity are in order. -/
theorem sendAll_timeOrdered_of_lt {n : Nat} (cs : Charset) (mode : SqlMode)
    (same : Value → Value → Bool) (cp : CodePage UInt16 UInt8) (senders : Fin n → Sender)
    (db : Database) (schedule : List (Fin n × Choice))
    (hcolumn : ∀ tb c, db "account_prize" = some tb → tb.column? "validtime" = some c →
      c.type = .int)
    (hrange : ∀ i, 0 ≤ (senders i).clock.toInt ∧ (senders i).clock.toInt < 2 ^ 31) :
    let pool := sendAll (.ofMode cs mode same) cp senders db schedule
    let added := addedRows pool.shared.log
    (∀ i, (pool.threads i).prog.result? = some (.ok ())) →
    (added.map fun a => (senders a.1).clock).IsChain (fun t t' => t.toInt ≤ t'.toInt) →
    TimeOrdered (fun i => (senders i).clock) added := by
  intro pool added hsent hle
  have h : Ended (.ofMode cs mode same) cp (fun i => (senders i).clocked) senders db
      pool.shared.log pool.shared.db fun _ => .ok () := pool_ended hsent
  apply (h.timeOrdered_iff_inStep hcolumn).mpr
  exact isChain_inStep_of_lt (List.forall_mem_map.mpr fun a _ => hrange a.1) hle

/-- The prize for the account admin, sent at two times. -/
def timedSenders (t t' : BitVec 64) : Fin 2 → Sender := fun i =>
  { dbConfig := {}, prize := ⟨wide "admin", 0, 1, 20101001, 1⟩, clock := if i = 0 then t else t' }

/-- The first sender runs to its end, then the second. -/
def firstThenSecond : List (Fin 2 × Choice) :=
  (turns 32 0 ++ turns 32 1).map fun turn => (turn.1, {})

theorem sendAll_timeOrdered_iff_admin :
    let senders := timedSenders 1750000000 1750000060
    let pool := sendAll (.ofMode .singleByte .strict fun v w => v = w) asciiPage senders adminDb
      firstThenSecond
    let added := addedRows pool.shared.log
    (added.map Prod.fst).Perm (List.finRange 2) ∧
      rowsOf pool.shared.db "account_prize" =
        rowsOf adminDb "account_prize" ++ added.map Prod.snd ∧
      (TimeOrdered (fun i => (senders i).clock) added ↔
        (added.map fun a => (senders a.1).clock).IsChain InStep) :=
  sendAll_timeOrdered_iff .singleByte .strict (fun v w => v = w) asciiPage
    (timedSenders 1750000000 1750000060) adminDb firstThenSecond (fun _ _ h => nomatch h)
    (by decide +kernel)

/-- From one second to the next the time of validity falls below every other. -/
theorem sendAll_reverses_time :
    let senders := timedSenders 2147483647 2147483648
    let pool := sendAll (.ofMode .singleByte .strict fun v w => v = w) asciiPage senders adminDb
      firstThenSecond
    let added := addedRows pool.shared.log
    (∀ i, (pool.threads i).prog.result? = some (.ok ())) ∧
    (added.map fun a => (senders a.1).clock.toInt) = [2147483647, 2147483648] ∧
    ¬ TimeOrdered (fun i => (senders i).clock) added := by
  intro senders pool added
  refine ⟨?_, ?_, ?_⟩
  · decide +kernel
  · decide +kernel
  · decide +kernel

end PrizeSender
