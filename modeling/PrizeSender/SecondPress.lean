import PrizeSender.Serializable

namespace PrizeSender

open Prog Sql

section

variable {κ : Type} [DecidableEq κ] {sv : Sql.Server} {cp : CodePage UInt16 UInt8}
variable {senders : κ → Sender} {db dbEnd : Database} {log : List (LogEntry κ)}
variable {result : κ → Except Bytes Unit} {p : Sender} {row : Row} {i : κ}

/-- A sender that has passed the account check leaves a prize table, be it the
one of another. -/
theorem Raced.table_isSome (h : Raced sv cp senders db log dbEnd result) (i : κ) :
    (dbEnd "account_prize").isSome := by
  rcases h.pastTable_or_blocked i with hpast | hblocked
  · obtain ⟨es, es', es'', hown, _, htable, _⟩ := hpast
    obtain ⟨x, hx, hleft⟩ := htable.leaves_table sv (answered_not_faults _)
    have hx : x ∈ ownLog i log := by simp [hown, hx]
    obtain ⟨after, before, hlog⟩ := List.mem_iff_append.mp (List.mem_of_mem_filter hx)
    have hrep := h.replays
    rw [hlog] at hrep
    obtain ⟨d, _, ha, hafter⟩ := replays_around hrep
    exact isSome_replays hafter (hleft d ha)
  · exact (h.blocked_counts hblocked).2.2.2

theorem Raced.columns (h : Raced sv cp senders db log dbEnd result) (i : κ) :
    (prizeTable dbEnd).columns = (prizeTable db).columns := by
  obtain ⟨tb, htb⟩ := Option.isSome_iff_exists.mp (h.table_isSome i)
  rw [← columns_ofSend h.replays h.ofSend htb, prizeTable, htb]
  rfl

theorem Raced.takes_iff (h : Raced sv cp senders db log dbEnd result) (i : κ) :
    Takes sv cp dbEnd p ↔ Takes sv cp db p :=
  (PrizeSender.takes_iff readyDb_table (h.columns i)).symm

theorem Raced.isPrizeOf (h : Raced sv cp senders db log dbEnd result) (i : κ)
    (hrow : IsPrizeOf sv cp dbEnd p row) : IsPrizeOf sv cp db p row := by
  unfold IsPrizeOf at hrow ⊢
  rwa [h.columns i] at hrow

theorem Raced.accountExists (h : Raced sv cp senders db log dbEnd result) {account : Bytes}
    (hacc : AccountExists sv db account) : AccountExists sv dbEnd account := by
  have hkept : dbEnd "account" = db "account" :=
    replays_frame_stmt h.replays fun e he => OfSend.keeps_account (h.ofSend e he)
  simpa only [AccountExists, hkept] using hacc

/-- A sender has added one row if it has returned, and none otherwise. -/
theorem Raced.count_addedRows (h : Raced sv cp senders db log dbEnd result) (i : κ) :
    ((addedRows log).map Prod.fst).count i = if result i = .ok () then 1 else 0 := by
  rw [PrizeSender.count_addedRows]
  split
  next hok =>
    obtain ⟨e, rest, row, hown, hrest, hrow, _⟩ := h.ended.own_insert (fun _ => rfl) hok
    have hzero : rest.countP LogEntry.appends = 0 :=
      List.countP_eq_zero.mpr fun e he => by simp [hrest e he]
    have hone : e.appends = true := by simp [LogEntry.appends, hrow, Answer.row?]
    rw [hown, List.countP_cons, hzero, hone]
    rfl
  next hne =>
    apply List.countP_eq_zero.mpr
    intro e he ha
    have hst := appends_stmt h.replays h.ofSend (List.mem_of_mem_filter he) ha
    have hsend := h.sends i
    cases hr : result i with
    | ok u => exact hne hr
    | error what =>
      rw [hr] at hsend
      exact answered_not_faults _ (hsend.lost_insert he hst ha).1

theorem Raced.ok_of_added (h : Raced sv cp senders db log dbEnd result)
    (ha : (i, row) ∈ addedRows log) : result i = .ok () := by
  have hpos : 0 < ((addedRows log).map Prod.fst).count i :=
    List.count_pos_iff.mpr (List.mem_map_of_mem (f := Prod.fst) ha)
  by_contra hne
  rw [h.count_addedRows, if_neg hne] at hpos
  omega

/-- The row of a sender that has returned is its prize. -/
theorem Raced.added_isPrizeOf (h : Raced sv cp senders db log dbEnd result)
    (hok : result i = .ok ()) (ha : (i, row) ∈ addedRows log) :
    IsPrizeOf sv cp db (senders i) row := by
  obtain ⟨x, hx, hpair⟩ := List.mem_filterMap.mp (List.mem_reverse.mp ha)
  obtain ⟨added, hadded, heq⟩ := Option.map_eq_some_iff.mp hpair
  cases heq
  obtain ⟨e, rest, row', hown, hrest, hrow, hprize⟩ := h.ended.own_insert (fun _ => rfl) hok
  have hmem : x ∈ ownLog x.sender log := List.mem_filter.mpr ⟨hx, by simp⟩
  rw [hown] at hmem
  rcases List.mem_cons.mp hmem with rfl | hmem
  · have hsame : row' = row := by simpa [hrow, Answer.row?] using hadded
    exact hsame ▸ hprize
  · have hnone := hrest x hmem
    simp [LogEntry.appends, hadded] at hnone

end

variable {n m : Nat} {sv : Sql.Server} {cp : CodePage UInt16 UInt8}

theorem race_raced (sv : Sql.Server) (cp : CodePage UInt16 UInt8) (senders : Fin n → Sender)
    (db : Database) (schedule : List (Fin n × Bytes))
    (haccounts : ∀ i, AccountExists sv db (cp.encode (senders i).prize.mUsername))
    (hturns : ∀ i, 32 ≤ (schedule.map Prod.fst).count i) :
    let pool := race sv cp senders db schedule
    ∃ result, Raced sv cp senders db pool.shared.log pool.shared.db result ∧
      ∀ i, (pool.threads i).prog.result? = some (result i) := by
  intro pool
  have hended : ∀ i, ∃ r, (pool.threads i).prog.result? = some r :=
    fun i => race_ended (hturns i)
  choose result hresult using hended
  exact ⟨result, ⟨pool_replays, fun i => pool_sendLog (hresult i), haccounts⟩, hresult⟩

/-- The second presses are those of the senders that have not returned. -/
structure PressedAgain (first : SenderPool (Fin n)) (lost : Fin m → Fin n) : Prop where
  injective : Function.Injective lost
  lost : ∀ i, (∃ j, lost j = i) ↔ (first.threads i).prog.result? ≠ some (.ok ())

theorem PressedAgain.count {first : SenderPool (Fin n)} {lost : Fin m → Fin n}
    (h : PressedAgain first lost) (i : Fin n) : ((List.finRange m).map lost).count i =
      if (first.threads i).prog.result? = some (.ok ()) then 0 else 1 := by
  split
  next hok =>
    apply List.count_eq_zero.mpr
    intro hi
    obtain ⟨j, _, hj⟩ := List.mem_map.mp hi
    exact (h.lost i).mp ⟨j, hj⟩ hok
  next hne =>
    obtain ⟨j, hj⟩ := (h.lost i).mpr hne
    apply List.count_eq_one_of_mem
    · exact (List.nodup_finRange m).map h.injective
    · exact List.mem_map.mpr ⟨j, List.mem_finRange j, hj⟩

/-- Over both rounds each sender has added one row. -/
theorem PressedAgain.perm_addedRows {first : SenderPool (Fin n)} {lost : Fin m → Fin n}
    {senders : Fin n → Sender} {senders' : Fin m → Sender} {db db' dbEnd dbEnd' : Database}
    {log : List (LogEntry (Fin n))} {log' : List (LogEntry (Fin m))}
    {result : Fin n → Except Bytes Unit} {result' : Fin m → Except Bytes Unit}
    (hlost : PressedAgain first lost)
    (hresult : ∀ i, (first.threads i).prog.result? = some (result i))
    (h : Raced sv cp senders db log dbEnd result)
    (h' : Raced sv cp senders' db' log' dbEnd' result') (hok' : ∀ j, result' j = .ok ()) :
    ((addedRows log).map Prod.fst ++ ((addedRows log').map Prod.fst).map lost).Perm
      (List.finRange n) := by
  have hperm : ((addedRows log').map Prod.fst).Perm (List.finRange m) := by
    apply List.perm_iff_count.mpr
    intro j
    rw [h'.count_addedRows, if_pos (hok' j), List.count_finRange]
  apply List.perm_iff_count.mpr
  intro i
  have hiff : (first.threads i).prog.result? = some (.ok ()) ↔ result i = .ok () := by
    rw [hresult i, Option.some.injEq]
  rw [List.count_append, h.count_addedRows, (hperm.map lost).count_eq, hlost.count,
    List.count_finRange]
  by_cases hok : result i = .ok ()
  · rw [if_pos hok, if_pos (hiff.mpr hok)]
  · rw [if_neg hok, if_neg (hiff.not.mpr hok)]

/-- Senders that run at the same time, whose accounts exist and whose calls are
all answered: those that fail press Send once more, again at the same time, and
if the table takes the prizes then each has been delivered exactly once. -/
theorem race_pressedAgain (sv : Sql.Server) (cp : CodePage UInt16 UInt8)
    (senders again : Fin n → Sender) (db : Database) (schedule : List (Fin n × Bytes))
    (schedule' : List (Fin m × Bytes)) (lost : Fin m → Fin n)
    (hprize : ∀ i, (again i).prize = (senders i).prize)
    (haccounts : ∀ i, AccountExists sv db (cp.encode (senders i).prize.mUsername))
    (htakes : ∀ i, Takes sv cp db (again i))
    (hturns : ∀ i, 32 ≤ (schedule.map Prod.fst).count i)
    (hturns' : ∀ j, 32 ≤ (schedule'.map Prod.fst).count j)
    (hlost : PressedAgain (race sv cp senders db schedule) lost) :
    let first := race sv cp senders db schedule
    let second := race sv cp (fun j => again (lost j)) first.shared.db schedule'
    (∀ j, (second.threads j).prog.result? = some (.ok ())) ∧
    ∃ added : List (Fin n × Row), (added.map Prod.fst).Perm (List.finRange n) ∧
      rowsOf second.shared.db "account_prize" =
        rowsOf db "account_prize" ++ added.map Prod.snd ∧
      ∀ a ∈ added, IsPrizeOf sv cp db
        (if (first.threads a.1).prog.result? = some (.ok ()) then senders a.1 else again a.1) a.2 := by
  intro first second
  obtain ⟨result, h, hresult⟩ := race_raced sv cp senders db schedule haccounts hturns
  change Raced sv cp senders db first.shared.log first.shared.db result at h
  have haccounts' : ∀ j, AccountExists sv first.shared.db
      (cp.encode (again (lost j)).prize.mUsername) := by
    intro j
    rw [hprize]
    exact h.accountExists (haccounts (lost j))
  obtain ⟨result', h', hresult'⟩ := race_raced sv cp (fun j => again (lost j)) first.shared.db
    schedule' haccounts' hturns'
  change Raced sv cp (fun j => again (lost j)) first.shared.db second.shared.log
    second.shared.db result' at h'
  have hok' : ∀ j, result' j = .ok () := fun j =>
    h'.allOk_iff.mpr ⟨Or.inl (h.table_isSome (lost j)),
      fun k => (h.takes_iff (lost k)).mpr (htakes (lost k))⟩ j
  have hperm := hlost.perm_addedRows hresult h h' hok'
  refine ⟨fun j => by rw [hresult' j, hok' j], addedRows first.shared.log ++
    (addedRows second.shared.log).map fun a => (lost a.1, a.2), ?_, ?_, ?_⟩
  · rw [List.map_map] at hperm
    rw [List.map_append, List.map_map]
    exact hperm
  · rw [rowsOf_addedRows h'.replays, rowsOf_addedRows h.replays, List.map_append, List.map_map,
      List.append_assoc]
    rfl
  · intro a ha
    rcases List.mem_append.mp ha with ha | ha
    · have hok : result a.1 = .ok () := h.ok_of_added ha
      rw [if_pos (by rw [hresult, hok])]
      exact h.added_isPrizeOf hok ha
    · obtain ⟨b, hb, rfl⟩ := List.mem_map.mp ha
      rw [if_neg ((hlost.lost _).mp ⟨b.1, rfl⟩)]
      exact h.isPrizeOf (lost b.1) (h'.added_isPrizeOf (hok' b.1) hb)

/-- The second of two operators loses the race for the table and presses again. -/
theorem race_pressedAgain_admin :
    let schedule := turns 12 0 ++ turns 12 1 ++ turns 32 0 ++ turns 32 1
    let first := race .exact asciiPage adminSenders adminDb schedule
    let second := race .exact asciiPage (fun _ : Fin 1 => adminSenders 1) first.shared.db
      (List.replicate 32 (0, []))
    (∀ j, (second.threads j).prog.result? = some (.ok ())) ∧
    ∃ added : List (Fin 2 × Row), (added.map Prod.fst).Perm (List.finRange 2) ∧
      rowsOf second.shared.db "account_prize" =
        rowsOf adminDb "account_prize" ++ added.map Prod.snd ∧
      ∀ a ∈ added, IsPrizeOf .exact asciiPage adminDb
        (if (first.threads a.1).prog.result? = some (.ok ()) then adminSenders a.1
          else adminSenders a.1) a.2 :=
  race_pressedAgain .exact asciiPage adminSenders adminSenders adminDb
    (turns 12 0 ++ turns 12 1 ++ turns 32 0 ++ turns 32 1) (List.replicate 32 (0, [])) (fun _ => 1)
    (fun _ => rfl) (fun _ => adminExists) adminTakes (by decide) (by decide)
    ⟨fun _ _ _ => Subsingleton.elim _ _, by decide +kernel⟩

end PrizeSender
