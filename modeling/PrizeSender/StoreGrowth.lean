import PrizeSender.Serializable
import PrizeSender.Keys

namespace PrizeSender

open Prog Sql

variable {κ : Type} {sv : Sql.Server} {db db' : Database} {log : List (LogEntry κ)}

theorem OfSend.table? {q : Sql.Statement} (h : Statement.OfSend q) :
    ∀ t, q.table? = some t → t = "account_prize" := by
  rcases h with rfl | rfl | rfl | rfl
  · simp [selectAccount, Statement.table?]
  · simp [checkTableQuery, Statement.table?]
  · simp [createTableSql, Statement.table?, eq_comm]
  · simp [insertQuery, Statement.table?, eq_comm]

theorem OfSend.leavesKey {q : Sql.Statement} (h : Statement.OfSend q) :
    q.LeavesKey "account_prize" "id" := by
  rcases h with rfl | rfl | rfl | rfl
  · trivial
  · trivial
  · exact fun _ => rfl
  · exact fun _ => by decide

theorem replays_grows (h : Replays sv db log db') (hst : ∀ e ∈ log, Statement.OfSend e.stmt) :
    Database.Grows "account_prize" db db' := by
  induction h with
  | nil => exact .refl
  | @cons log db' e _ ha ih =>
    have hgrows := ih fun e he => hst e (List.mem_cons_of_mem _ he)
    rw [ha]
    exact hgrows.trans (.apply (OfSend.table? (hst e List.mem_cons_self)))

theorem replays_keyed (h : Replays sv db log db') (hst : ∀ e ∈ log, Statement.OfSend e.stmt)
    (hkey : db.Keyed "account_prize" "id") : db'.Keyed "account_prize" "id" := by
  induction h with
  | nil => exact hkey
  | @cons log db' e _ ha ih =>
    have hkeyed := ih fun e he => hst e (List.mem_cons_of_mem _ he)
    rw [ha]
    exact Database.Keyed.apply hkeyed (OfSend.leavesKey (hst e List.mem_cons_self))

/-- From any moment of any interleaving to any later one, under all faults, the
store only grows: new prizes come after the earlier ones. -/
theorem sendAll_grows {n : Nat} (sv : Sql.Server) (cp : CodePage UInt16 UInt8)
    (senders : Fin n → Sender) (db : Database) (schedule rest : List (Fin n × Choice)) :
    Database.Grows "account_prize" (sendAll sv cp senders db schedule).shared.db
      (sendAll sv cp senders db (schedule ++ rest)).shared.db := by
  obtain ⟨es, _, hrep, hst⟩ := sendAll_between sv cp senders db schedule rest
  exact replays_grows hrep hst

/-- At every moment of every interleaving, under all faults, each prize has all
its columns and an id of its own, larger than those of the earlier ones: the
keys of the prize table are never violated. -/
theorem sendAll_keyed {n : Nat} (sv : Sql.Server) (cp : CodePage UInt16 UInt8)
    (senders : Fin n → Sender) (db : Database) (schedule : List (Fin n × Choice))
    (hkey : db.Keyed "account_prize" "id") :
    let pool := sendAll sv cp senders db schedule
    pool.shared.db.Keyed "account_prize" "id" ∧ ∀ tb, pool.shared.db "account_prize" = some tb →
      (tb.rows.map fun row => row.lookup "id").Nodup := by
  intro pool
  obtain ⟨_, hend, _, _⟩ := sendAll_asEnded sv cp senders db schedule
  have hkeyed : pool.shared.db.Keyed "account_prize" "id" :=
    replays_keyed hend.replays hend.ofSend hkey
  exact ⟨hkeyed, fun tb htb => (hkeyed tb htb).nodup⟩

def earlierPrize (id : Int) : Row := [
  ("id", .int id), ("account", .text (ascii "admin")), ("world", .int 0), ("charguid", .int 1),
  ("itemid", .int 20101001), ("itemnum", .int 1), ("isget", .int 0),
  ("validtime", .int 1700000000)]

/-- A database in which two prizes have been sent to the account admin and one
between them is gone. -/
def rewardedDb : Database := Function.update adminDb "account_prize"
  (some ⟨prizeColumns, [earlierPrize 1, earlierPrize 3], 4⟩)

theorem rewardedDb_keyed : rewardedDb.Keyed "account_prize" "id" := by
  intro tb htb
  obtain rfl : ⟨prizeColumns, [earlierPrize 1, earlierPrize 3], 4⟩ = tb := by
    simpa [rewardedDb] using htb
  refine ⟨by decide, by decide, ?_, ?_⟩
  · simp [earlierPrize]
  · simp [earlierPrize]

theorem sendAll_keyed_admin :
    let pool := sendAll .exact asciiPage (timedSenders 1750000000 1750000060) rewardedDb
      firstThenSecond
    pool.shared.db.Keyed "account_prize" "id" ∧ ∀ tb, pool.shared.db "account_prize" = some tb →
      (tb.rows.map fun row => row.lookup "id").Nodup :=
  sendAll_keyed .exact asciiPage (timedSenders 1750000000 1750000060) rewardedDb firstThenSecond
    rewardedDb_keyed

end PrizeSender
