import PrizeSender.Alone
import PrizeSender.OwnPrize
import PrizeSender.ValidTime

namespace PrizeSender

open Prog Sql

section

variable {κ : Type} (sv : Sql.Server) (cp : CodePage UInt16 UInt8) (senders : κ → Sender)

/-- The store as it is meant: each of these senders in its turn, oldest first,
finds its account and adds its prize in one step. -/
inductive SentInTurn (db : Database) : List κ → Database → Prop
  | nil : SentInTurn db [] db
  | snoc {is d i row} : SentInTurn db is d →
      AccountExists sv d (cp.encode (senders i).prize.mUsername) →
      sv.respond (readyDb d) insertQuery ((senders i).values cp) = .inserted "account_prize" row →
      SentInTurn db (is ++ [i]) (withPrize d row)

/-- The prizes added by a log are those of its senders, for accounts that
exist. -/
structure History (db : Database) (log : List (LogEntry κ)) (dbEnd : Database) : Prop where
  replays : Replays sv db log dbEnd
  ofSend : ∀ e ∈ log, Statement.OfSend e.stmt
  prize : ∀ e ∈ log, e.appends = true → e.params = (senders e.sender).values cp ∧
    AccountExists sv db (cp.encode (senders e.sender).prize.mUsername)

end

/-- The same store, but for an empty prize table. -/
def SameStore (d d' : Database) : Prop :=
  d' = d ∨ d "account_prize" = none ∧ d' = withPrizeTable d

variable {κ : Type} {sv : Sql.Server} {cp : CodePage UInt16 UInt8} {senders : κ → Sender}
variable {db d d' dbEnd : Database} {log : List (LogEntry κ)} {is : List κ} {e : LogEntry κ}

theorem SameStore.ready (h : SameStore d d') : readyDb d' = readyDb d := by
  rcases h with rfl | ⟨hnone, rfl⟩
  · rfl
  · rw [← readyDb_eq_withPrizeTable hnone, readyDb_eq_self (by simp [readyDb])]

theorem SameStore.account (h : SameStore d d') : d' "account" = d "account" := by
  rcases h with rfl | ⟨_, rfl⟩
  · rfl
  · simp [withPrizeTable]

/-- A statement that names no table to change leaves the store and adds no
row. -/
theorem quiet_answer {ps : List Value} {q : Sql.Statement} {a : Answer}
    (ha : a = sv.respond d q ps) (hq : q.table? = none) :
    a.apply d = d ∧ a.row? "account_prize" = none := by
  have ht : a.table? = none := by
    cases ht : a.table? with
    | none => rfl
    | some table =>
      rw [ha] at ht
      cases hq.symm.trans (respond_table? ht)
  cases a with
  | rows n => exact ⟨rfl, rfl⟩
  | error errno => exact ⟨rfl, rfl⟩
  | created table columns => cases ht
  | inserted table row => cases ht

theorem addedRows_cons : addedRows (e :: log) = addedRows log ++
    ((e.answer.row? "account_prize").map fun row => (e.sender, row)).toList := by
  rw [addedRows, addedRows, List.filterMap_cons]
  cases e.answer.row? "account_prize" <;> simp

/-- One answer keeps the store that of sends in turn. -/
theorem SentInTurn.answered (h : SentInTurn sv cp senders db is d) (hsame : SameStore d d')
    (ha : e.answer = sv.respond d' e.stmt e.params) (hst : Statement.OfSend e.stmt)
    (hprize : e.appends = true → e.params = (senders e.sender).values cp ∧
      AccountExists sv d (cp.encode (senders e.sender).prize.mUsername)) :
    ∃ d₁, SentInTurn sv cp senders db
        (is ++ ((e.answer.row? "account_prize").map fun _ => e.sender).toList) d₁ ∧
      SameStore d₁ (e.answer.apply d') := by
  have hkeep : e.answer.apply d' = d' → e.answer.row? "account_prize" = none →
      ∃ d₁, SentInTurn sv cp senders db
          (is ++ ((e.answer.row? "account_prize").map fun _ => e.sender).toList) d₁ ∧
        SameStore d₁ (e.answer.apply d') := by
    intro hd hrow
    rw [hd, hrow]
    exact ⟨d, by simpa using h, hsame⟩
  rcases hst with hq | hq | hq | hq
  · obtain ⟨hd, hrow⟩ := quiet_answer ha (by rw [hq]; rfl)
    exact hkeep hd hrow
  · obtain ⟨hd, hrow⟩ := quiet_answer ha (by rw [hq]; rfl)
    exact hkeep hd hrow
  · rw [hq, respond_create] at ha
    split at ha
    next => exact hkeep (by rw [ha]; rfl) (by rw [ha]; rfl)
    next habsent =>
      have hnone : d' "account_prize" = none := by simpa using habsent
      obtain rfl : d' = d := by
        rcases hsame with rfl | ⟨_, rfl⟩
        · rfl
        · simp [withPrizeTable] at hnone
      rw [ha]
      refine ⟨d', by simpa [Answer.row?] using h, Or.inr ⟨hnone, rfl⟩⟩
  · cases hans : e.answer with
    | rows n => exact hans ▸ hkeep (by rw [hans]; rfl) (by rw [hans]; rfl)
    | error errno => exact hans ▸ hkeep (by rw [hans]; rfl) (by rw [hans]; rfl)
    | created table columns => cases hq.symm.trans (respond_created (ha.symm.trans hans)).1
    | inserted table row =>
      have hins : sv.respond d' insertQuery e.params = .inserted table row := by
        rw [← hq, ← ha, hans]
      obtain ⟨_, _, tb, _, hst, htb, _⟩ := respond_inserted hins
      cases hst
      obtain ⟨hparams, hacc⟩ := hprize (by simp [LogEntry.appends, hans, Answer.row?])
      have hready : readyDb d = d' := by
        rw [← hsame.ready, readyDb_eq_self (by rw [htb]; rfl)]
      have hrow : sv.respond (readyDb d) insertQuery ((senders e.sender).values cp) =
          .inserted "account_prize" row := by
        rw [hready, ← hparams, hins]
      refine ⟨withPrize d row, ?_, Or.inl ?_⟩
      · simpa [Answer.row?] using h.snoc hacc hrow
      · rw [withPrize_eq_apply, hready]

/-- The store that a history leaves is that of sends in turn, in the order of
the INSERTs. -/
theorem History.sentInTurn (h : History sv cp senders db log dbEnd) :
    ∃ d, SentInTurn sv cp senders db ((addedRows log).map Prod.fst) d ∧ SameStore d dbEnd := by
  obtain ⟨hrep, hst, hprize⟩ := h
  induction hrep with
  | nil => exact ⟨db, .nil, Or.inl rfl⟩
  | @cons log d' e hrep ha ih =>
    have hst' : ∀ e ∈ log, Statement.OfSend e.stmt := fun e he => hst e (List.mem_cons_of_mem _ he)
    obtain ⟨d, hturn, hsame⟩ := ih hst' fun e he => hprize e (List.mem_cons_of_mem _ he)
    have haccount : d "account" = db "account" := by
      rw [← hsame.account]
      exact replays_frame_stmt hrep fun e he => OfSend.keeps_account (hst' e he)
    obtain ⟨d₁, hturn₁, hsame₁⟩ := hturn.answered hsame ha (hst e List.mem_cons_self) fun happ => by
      obtain ⟨hparams, hacc⟩ := hprize e List.mem_cons_self happ
      exact ⟨hparams, by simpa only [AccountExists, haccount] using hacc⟩
    refine ⟨d₁, ?_, hsame₁⟩
    rw [addedRows_cons, List.map_append]
    cases hrow : e.answer.row? "account_prize" <;> simpa [hrow] using hturn₁

end PrizeSender
