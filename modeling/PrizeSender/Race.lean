import PrizeSender.Raced
import PrizeSender.SendSpec
import PrizeSender.CallBound
import Mathlib.Data.List.FinRange

namespace PrizeSender

open Prog Sql

variable {κ : Type} [DecidableEq κ] {sv : Sql.Server} {cp : CodePage UInt16 UInt8}
variable {senders : κ → Sender} {db : Database} {schedule : List (κ × Bytes)}

/-- The programs of senders and the server between them. -/
abbrev SenderPool (κ : Type) :=
  Pool DbCall DbCall.Reply κ Client (ServerState κ) (Except Bytes Unit)

def startPool (cp : CodePage UInt16 UInt8) (senders : κ → Sender) (db : Database) :
    SenderPool κ where
  threads i :=
    { prog := (processSendPrize cp (senders i).dbConfig (senders i).prize.mUsername
        (senders i).prize.mWorld (senders i).prize.mCharguid (senders i).prize.mItem
        (senders i).prize.mCount).run
      own := {} }
  shared := ⟨db, []⟩

/-- The server as each sender has it when all its calls are answered. -/
def answering (sv : Sql.Server) (senders : κ → Sender) :
    κ → Env DbCall DbCall.Reply Bytes Client (ServerState κ) :=
  fun i text => serve sv i ((senders i).answered text)

/-- The senders run at the same time, their calls being made in the order of
the schedule. -/
def race (sv : Sql.Server) (cp : CodePage UInt16 UInt8) (senders : κ → Sender) (db : Database)
    (schedule : List (κ × Bytes)) : SenderPool κ :=
  (startPool cp senders db).interleave (answering sv senders) schedule

section

variable {ι : Type} {g : κ → ι → Choice} {plan : List (κ × ι)} {i : κ} {r : Except Bytes Unit}

theorem pool_replays :
    let pool := (startPool cp senders db).interleave (fun i y => serve sv i (g i y)) plan
    Replays sv db pool.shared.log pool.shared.db := by
  intro pool
  have hstep : ∀ i y l s c, Ran sv (fun _ => True) ⟨db, []⟩ s →
      Ran sv (fun _ => True) ⟨db, []⟩ (serve sv i (g i y) l s c).2.2 :=
    fun _ _ _ _ _ h => serve_ran (fun _ _ => trivial) h
  have hran : Ran sv (fun _ => True) ⟨db, []⟩ pool.shared :=
    interleave_keeps hstep plan ran_refl
  obtain ⟨es, hlog, hrep, _⟩ := hran
  rw [hlog, List.append_nil]
  exact hrep

theorem pool_sendLog :
    let pool := (startPool cp senders db).interleave (fun i y => serve sv i (g i y)) plan
    (pool.threads i).prog.result? = some r →
    SendLog (g i) i (cp.encode (senders i).prize.mUsername) (senders i).prize.mWorld
      (senders i).prize.mCharguid (senders i).prize.mItem (senders i).prize.mCount
      (ownLog i pool.shared.log) r := by
  intro pool hr
  have hquiet : ∀ i j y l s c, i ≠ j →
      (Interference.keeping (mine i)).step s (serve sv j (g j y) l s c).2.2 :=
    fun i j _ _ _ _ hij => serve_mine_ne hij.symm
  have hstart : ∀ i, ((startPool cp senders db).threads i).prog.wp (fun y => serve sv i (g i y))
      (.keeping (mine i)) (fun r _ s => ∃ es, mine i s = es ++ [] ∧ SendLog (g i) i
        (cp.encode (senders i).prize.mUsername) (senders i).prize.mWorld
        (senders i).prize.mCharguid (senders i).prize.mItem (senders i).prize.mCount es r)
      {} ⟨db, []⟩ :=
    fun i => processSendPrize_spec _ rfl
  obtain ⟨es, hown, hsend⟩ := interleave_ended hquiet plan hstart hr
  rw [List.append_nil] at hown
  subst hown
  exact hsend

/-- A pool whose senders have all ended. -/
theorem pool_ended {result : κ → Except Bytes Unit} :
    let pool := (startPool cp senders db).interleave (fun i y => serve sv i (g i y)) plan
    (∀ i, (pool.threads i).prog.result? = some (result i)) →
    Ended sv cp g senders db pool.shared.log pool.shared.db result :=
  fun hresult => ⟨pool_replays, fun i => pool_sendLog (hresult i)⟩

end

theorem race_ended {i : κ} (hturns : 32 ≤ (schedule.map Prod.fst).count i) :
    ∃ r, ((race sv cp senders db schedule).threads i).prog.result? = some r :=
  Option.isSome_iff_exists.mp (interleave_within processSendPrize_within hturns)

/-- Every sender has returned, the prize table has been created at most once,
and each sender has added its prize and no other row. -/
structure AllSent {n : Nat} (sv : Sql.Server) (cp : CodePage UInt16 UInt8)
    (senders : Fin n → Sender) (db : Database) (pool : SenderPool (Fin n)) : Prop where
  returned : ∀ i, (pool.threads i).prog.result? = some (.ok ())
  created : pool.shared.log.countP LogEntry.creates ≤ 1
  rows : ∃ added : List (Fin n × Row), (added.map Prod.fst).Perm (List.finRange n) ∧
    rowsOf pool.shared.db "account_prize" =
      rowsOf db "account_prize" ++ added.map Prod.snd ∧
    ∀ a ∈ added, IsPrizeOf sv cp db (senders a.1) a.2

/-- Senders that run at the same time all succeed if and only if the table was
there or is probed by one sender at most before it is created, and it takes the
prize of each of them. -/
theorem race_allSent_iff {n : Nat} (sv : Sql.Server) (cp : CodePage UInt16 UInt8)
    (senders : Fin n → Sender) (db : Database) (schedule : List (Fin n × Bytes))
    (haccounts : ∀ i, AccountExists sv db (cp.encode (senders i).prize.mUsername))
    (hturns : ∀ i, 32 ≤ (schedule.map Prod.fst).count i) :
    let pool := race sv cp senders db schedule
    AllSent sv cp senders db pool ↔
      ((db "account_prize").isSome ∨ earlyProbes pool.shared.log ≤ 1) ∧
        ∀ i, Takes sv cp db (senders i) := by
  intro pool
  have hended : ∀ i, ∃ r, (pool.threads i).prog.result? = some r :=
    fun i => race_ended (hturns i)
  choose result hresult using hended
  have h : Raced sv cp senders db pool.shared.log pool.shared.db result :=
    ⟨pool_replays, fun i => pool_sendLog (hresult i), haccounts⟩
  rw [← h.allOk_iff]
  constructor
  · intro hall i
    exact Option.some.inj ((hresult i).symm.trans (hall.returned i))
  · intro hok
    obtain ⟨hcount, hprizes⟩ := h.ended.addedRows_spec (fun _ _ => rfl) hok
    refine ⟨fun i => by rw [hresult i, hok i], ?_, addedRows pool.shared.log, ?_,
      rowsOf_addedRows h.replays, hprizes⟩
    · have htable := creates_replays "account_prize" h.replays
      have hle := Bool.toNat_le (pool.shared.db "account_prize").isSome
      change _ = _ + pool.shared.log.countP LogEntry.creates at htable
      omega
    · apply List.perm_iff_count.mpr
      intro i
      rw [hcount i, List.count_finRange]

/-- Two operators who send the same prize to the account admin. -/
def adminSenders : Fin 2 → Sender := fun _ =>
  { dbConfig := {}, prize := ⟨wide "admin", 0, 1, 20101001, 1⟩, clock := 0 }

/-- Turns in a row. -/
def turns (k : Nat) (i : Fin 2) : List (Fin 2 × Bytes) := List.replicate k (i, [])

theorem adminExists : AccountExists .exact adminDb (asciiPage.encode (wide "admin")) :=
  ⟨_, _, _, rfl, by decide, List.mem_cons_self, rfl, by decide⟩

theorem adminTakes (i : Fin 2) : Takes .exact asciiPage adminDb (adminSenders i) := ⟨_, rfl⟩

theorem race_allSent_iff_admin :
    let pool := race .exact asciiPage adminSenders adminDb (turns 32 0 ++ turns 32 1)
    AllSent .exact asciiPage adminSenders adminDb pool ∧
      ((adminDb "account_prize").isSome ∨ earlyProbes pool.shared.log ≤ 1) ∧
        ∀ i, Takes .exact asciiPage adminDb (adminSenders i) := by
  have hearly : earlyProbes (race .exact asciiPage adminSenders adminDb
      (turns 32 0 ++ turns 32 1)).shared.log ≤ 1 := by
    decide +kernel
  have hiff := race_allSent_iff .exact asciiPage adminSenders adminDb (turns 32 0 ++ turns 32 1)
    (fun _ => adminExists) (by decide)
  exact ⟨hiff.mpr ⟨Or.inr hearly, adminTakes⟩, Or.inr hearly, adminTakes⟩

/-- When both have looked for the table before one of them makes it, the other
one fails. -/
theorem race_blocks_second :
    let schedule := turns 12 0 ++ turns 12 1 ++ turns 32 0 ++ turns 32 1
    (∀ i, 32 ≤ (schedule.map Prod.fst).count i) ∧
    (∀ i, AccountExists .exact adminDb (asciiPage.encode (adminSenders i).prize.mUsername)) ∧
    ¬ AllSent .exact asciiPage adminSenders adminDb
      (race .exact asciiPage adminSenders adminDb schedule) := by
  intro schedule
  refine ⟨by decide, fun _ => adminExists, ?_⟩
  intro h
  have hfails : ((race .exact asciiPage adminSenders adminDb schedule).threads 1).prog.result? ≠
      some (.ok ()) := by
    decide +kernel
  exact hfails (h.returned 1)

end PrizeSender
