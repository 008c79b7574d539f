import PrizeSender.Office
import PrizeSender.Retry
import PrizeSender.StoreGrowth

namespace PrizeSender

open Prog Sql CTlPrizeSenderDlg

/-- One prize sent: what the operator was told, the statements sent for it,
newest first, and the row it has left. -/
structure Posting (κ : Type) where
  prize : CAppConfigPrize
  success : Bool
  entries : List (LogEntry κ)
  row : Option Row

/-- Stored, while the operator was told that it has failed. -/
def Posting.lost {κ : Type} (x : Posting κ) : Bool := x.row.isSome && !x.success

section

variable {κ ι : Type} {sv : Sql.Server} {cp : CodePage UInt16 UInt8} {g : ι → Choice} {i : κ}
variable {db dbEnd : Database} {log es : List (LogEntry κ)} {account : Bytes}
variable {world charguid item count : CInt} {prize : CAppConfigPrize} {x : Dispatch κ}
variable {sends : List (Dispatch κ)}

def LogEntry.prizeRow (e : LogEntry κ) : Option Row := e.answer.row? "account_prize"

def Dispatch.posting (x : Dispatch κ) : Posting κ where
  prize := x.prize
  success := x.told
  entries := x.entries
  row := (x.entries.filterMap LogEntry.prizeRow).head?

/-- The row of an INSERT that carries the prize holds it. -/
theorem OwnPrize.stored {e : LogEntry κ} {row : Row} (hz : cString account = account)
    (hown : e.OwnPrize g account prize.mWorld prize.mCharguid prize.mItem prize.mCount)
    (hst : e.stmt = insertQuery) (ha : e.answer = sv.respond db e.stmt e.params)
    (hrow : e.prizeRow = some row) :
    ∃ tb, db "account_prize" = some tb ∧
      ∀ p ∈ prizeGiven account prize, sv.Stored tb.columns row p.1 p.2 := by
  obtain ⟨table, hans⟩ : ∃ table, e.answer = .inserted table row := by
    cases hans : e.answer with
    | rows n => simp [hans, LogEntry.prizeRow, Answer.row?] at hrow
    | error n => simp [hans, LogEntry.prizeRow, Answer.row?] at hrow
    | created table columns => simp [hans, LogEntry.prizeRow, Answer.row?] at hrow
    | inserted table row' =>
      simp only [hans, LogEntry.prizeRow, Answer.row?] at hrow
      split at hrow
      next => exact ⟨table, by rw [Option.some.inj hrow]⟩
      next => cases hrow
  rw [hans, hst] at ha
  rcases hown hst with hnil | ⟨y, hvs⟩
  · rw [hnil] at ha
    obtain ⟨_, _, _, _, hq, _, _, hvs, _⟩ := respond_inserted ha.symm
    cases hq
    cases hvs
  · rw [hvs] at ha
    obtain ⟨tb, row', htb, heq, hstored⟩ := insert_answer (n := 0) ha rfl
    cases heq
    exact ⟨tb, htb, fun p hp => hstored p (prizeGiven_subset hz p hp)⟩

theorem length_prizeRows : (es.filterMap LogEntry.prizeRow).length = es.countP LogEntry.appends := by
  rw [List.length_filterMap_eq_countP]
  rfl

/-- What the log of a send says of its posting. -/
structure Dispatch.Entered (sv : Sql.Server) (cp : CodePage UInt16 UInt8) (dbEnd : Database)
    (x : Dispatch κ) : Prop where
  rows : x.entries.filterMap LogEntry.prizeRow = x.posting.row.toList
  stored : ∀ row ∈ x.posting.row, ∃ tb, dbEnd "account_prize" = some tb ∧
    ∀ p ∈ prizeGiven (cp.encode x.prize.mUsername) x.prize, sv.Stored tb.columns row p.1 p.2
  honest : x.posting.success = true → x.posting.row.isSome
  lost : x.entries.countP LogEntry.lostInsert = if x.posting.lost then 1 else 0

/-- What is stored stays stored. -/
theorem stored_of_grows {d : Database} {row : Row} {given : List (String × Value)}
    (h : Database.Grows "account_prize" d dbEnd)
    (hrow : ∃ tb, d "account_prize" = some tb ∧ ∀ p ∈ given, sv.Stored tb.columns row p.1 p.2) :
    ∃ tb, dbEnd "account_prize" = some tb ∧ ∀ p ∈ given, sv.Stored tb.columns row p.1 p.2 := by
  obtain ⟨tb, htb, hstored⟩ := hrow
  obtain ⟨tb', htb', hcolumns, _⟩ := h.kept tb htb
  exact ⟨tb', htb', hcolumns ▸ hstored⟩

/-- The row of a send is in the table at the end. -/
theorem Dispatch.Logged.stored {row : Row} (h : x.Logged cp i) (hrep : Replays sv db log dbEnd)
    (hst : ∀ e ∈ log, Statement.OfSend e.stmt) (hx : ∀ e ∈ x.entries, e ∈ log)
    (hz : cString (cp.encode x.prize.mUsername) = cp.encode x.prize.mUsername)
    (hrow : row ∈ x.entries.filterMap LogEntry.prizeRow) :
    ∃ tb, dbEnd "account_prize" = some tb ∧
      ∀ p ∈ prizeGiven (cp.encode x.prize.mUsername) x.prize, sv.Stored tb.columns row p.1 p.2 := by
  obtain ⟨e, he, hrow⟩ := List.mem_filterMap.mp hrow
  have ha : e.appends = true := Option.isSome_of_eq_some hrow
  have hins : e.stmt = insertQuery := appends_stmt hrep hst (hx e he) ha
  obtain ⟨after, before, rfl⟩ := List.mem_iff_append.mp (hx e he)
  obtain ⟨d, _, hans, hafter⟩ := replays_around hrep
  have hlater := replays_grows hafter fun e he => hst e (by simp [he])
  rw [hans] at hlater
  have hgrows : Database.Grows "account_prize" d dbEnd :=
    .trans (.apply (OfSend.table? (hst e (hx e he)))) hlater
  exact stored_of_grows hgrows (OwnPrize.stored hz (h.own e he) hins hans hrow)

/-- A send that has returned has lost no INSERT. -/
theorem SendLog.countP_lostInsert_ok
    (h : SendLog g i account world charguid item count es (.ok ()))
    (hans : ∀ e ∈ es, ∃ d, e.answer = sv.respond d e.stmt e.params)
    (hins : ∀ e ∈ es, e.appends = true → e.stmt = insertQuery) :
    es.countP LogEntry.lostInsert = 0 := by
  apply List.countP_eq_zero.mpr
  intro e he hl
  obtain ⟨ha, hd⟩ : e.appends = true ∧ e.delivered = false := by
    simpa [LogEntry.lostInsert] using hl
  rw [(h.delivered_insert hans).2 e he (hins e he ha)] at hd
  cases hd

/-- A send that has thrown has lost each INSERT it has made. -/
theorem SendLog.countP_lostInsert_error {what : Bytes}
    (h : SendLog g i account world charguid item count es (.error what))
    (hins : ∀ e ∈ es, e.appends = true → e.stmt = insertQuery) :
    es.countP LogEntry.lostInsert = es.countP LogEntry.appends := by
  apply List.countP_congr
  intro e he
  simp only [LogEntry.lostInsert, Bool.and_eq_true, Bool.not_eq_eq_eq_not, Bool.not_true]
  exact ⟨fun hl => hl.1, fun ha => ⟨ha, (h.lost_insert he (hins e he ha) ha).2⟩⟩

theorem Dispatch.prizeRows_of_length (h : (x.entries.filterMap LogEntry.prizeRow).length ≤ 1) :
    x.entries.filterMap LogEntry.prizeRow = x.posting.row.toList := by
  rw [Dispatch.posting]
  cases hadded : x.entries.filterMap LogEntry.prizeRow with
  | nil => rfl
  | cons row rest =>
    rw [hadded, List.length_cons] at h
    rw [List.length_eq_zero_iff.mp (by omega : rest.length = 0)]
    rfl

theorem Dispatch.Logged.entered (h : x.Logged cp i) (hrep : Replays sv db log dbEnd)
    (hst : ∀ e ∈ log, Statement.OfSend e.stmt) (hx : ∀ e ∈ x.entries, e ∈ log)
    (hz : cString (cp.encode x.prize.mUsername) = cp.encode x.prize.mUsername) :
    x.Entered sv cp dbEnd := by
  have hins : ∀ e ∈ x.entries, e.appends = true → e.stmt = insertQuery :=
    fun e he ha => appends_stmt hrep hst (hx e he) ha
  have hans : ∀ e ∈ x.entries, ∃ d, e.answer = sv.respond d e.stmt e.params :=
    fun e he => replays_mem hrep (hx e he)
  have hrows : x.entries.filterMap LogEntry.prizeRow = x.posting.row.toList :=
    Dispatch.prizeRows_of_length (length_prizeRows ▸ h.log.countP_appends_le hins)
  have hcount : x.entries.countP LogEntry.appends = if x.posting.row.isSome then 1 else 0 := by
    rw [← length_prizeRows, hrows]
    cases x.posting.row <;> rfl
  have hlog := h.log
  refine ⟨hrows, ?_, ?_, ?_⟩
  · intro row hrow
    apply h.stored hrep hst hx hz
    rw [hrows, Option.mem_def.mp hrow]
    exact List.mem_cons_self
  · intro hsuccess
    have hok : x.result = .ok () := by simpa [Dispatch.posting, Dispatch.told] using hsuccess
    rw [hok] at hlog
    have hpos := List.countP_pos_iff.mpr (hlog.delivered_insert hans).1
    by_contra hnone
    rw [hcount, if_neg hnone] at hpos
    omega
  · cases hr : x.result with
    | ok u =>
      rw [hr] at hlog
      rw [hlog.countP_lostInsert_ok hans hins, Posting.lost, Dispatch.posting, Dispatch.told, hr]
      simp
    | error what =>
      rw [hr] at hlog
      have htold : x.posting.success = false := by simp [Dispatch.posting, Dispatch.told, hr]
      rw [hlog.countP_lostInsert_error hins, hcount, Posting.lost, htold]
      simp

theorem rows_sends (h : ∀ x ∈ sends, x.Entered sv cp dbEnd) :
    ((sends.reverse.flatMap Dispatch.entries).filterMap LogEntry.prizeRow).reverse =
      (sends.map Dispatch.posting).filterMap Posting.row := by
  induction sends with
  | nil => rfl
  | cons x sends ih =>
    have hx := (h x List.mem_cons_self).rows
    have hrest := ih fun x hx => h x (List.mem_cons_of_mem _ hx)
    rw [List.reverse_cons, List.flatMap_append, List.filterMap_append, List.reverse_append, hrest,
      List.flatMap_singleton, hx, List.map_cons, List.filterMap_cons]
    cases x.posting.row <;> rfl

end

/-! What is sent comes from forms that have been accepted. -/

section

variable {ddxInt : WString → Option CInt}

def FromForms (ddxInt : WString → Option CInt) (acts : List Act) : Prop :=
  ∀ prize ∈ acts.filterMap Act.prize?, ∃ controls, acceptPrize ddxInt controls = some prize

theorem play_fromForms (actions : List Action) (c : Confirmed) :
    FromForms ddxInt (c.play ddxInt actions).1 := by
  induction actions generalizing c with
  | nil => simp [FromForms, Confirmed.play]
  | cons action actions ih =>
    cases action with
    | showSetting presses =>
      rw [Confirmed.play]
      split
      next => exact ih _
      next => exact ih _
    | send controls =>
      rw [Confirmed.play]
      split
      next P hP =>
        intro prize hprize
        rcases List.mem_cons.mp hprize with rfl | hprize
        · exact ⟨controls, hP⟩
        · exact ih _ prize hprize
      next => exact ih _
    | enter controls =>
      rw [Confirmed.play]
      split
      next => simp [FromForms]
      next => exact ih _

theorem lifetime_fromForms (sessions : List (List Action)) (config : CAppConfig) :
    FromForms ddxInt (config.lifetime ddxInt sessions).1 := by
  induction sessions generalizing config with
  | nil => simp [FromForms, CAppConfig.lifetime]
  | cons actions sessions ih =>
    intro prize hprize
    rw [CAppConfig.lifetime, List.filterMap_append, List.filterMap_append] at hprize
    rcases List.mem_append.mp hprize with hprize | hprize
    · rcases List.mem_append.mp hprize with hprize | hprize
      · exact play_fromForms actions _ prize hprize
      · cases hprize
    · exact ih _ prize hprize

end

end PrizeSender
