import PrizeSender.SendSpec
import PrizeSender.Replay

namespace PrizeSender

open Prog Sql

variable {κ ι : Type} {sv : Sql.Server} {g : ι → Choice} {i : κ} {db db' : Database}
variable {es : List (LogEntry κ)} {account : Bytes} {world charguid item count : CInt}
variable {r : Except Bytes Unit}

theorem AccountLog.stmt (h : AccountLog g i account es r) : ∀ e ∈ es, e.stmt = selectAccount := by
  cases h with
  | found => simp [sent]
  | missing => simp [sent]
  | unprepared => simp [sent]
  | refused => simp [sent]
  | faulted _ hes => exact hes

theorem TableLog.stmt (h : TableLog g i es r) :
    ∀ e ∈ es, e.stmt = checkTableQuery ∨ e.stmt = createTableSql := by
  cases h with
  | found => simp [sent]
  | made => simp [sent]
  | unmade => simp [sent]
  | refused => simp [sent]
  | faulted _ hes => exact hes

theorem PrizeLog.stmt (h : PrizeLog g i account world charguid item count es r) :
    ∀ e ∈ es, e.stmt = insertQuery := by
  cases h with
  | stored => simp [sent]
  | unprepared => simp [sent]
  | refused => simp [sent]
  | faulted _ hes => exact fun e he => (hes e he).1

theorem AccountLog.keeps (h : AccountLog g i account es r) (hrep : Replays sv db es db') :
    db' = db := by
  funext table
  apply replays_frame_stmt hrep
  intro e he
  simp [h.stmt e he, selectAccount, Statement.table?]

/-- The database with the table `checkPrizeTable` creates. -/
def withPrizeTable (db : Database) : Database :=
  Function.update db "account_prize" (some ⟨prizeColumns, [], 1⟩)

/-- The table check creates the prize table, or changes nothing. -/
theorem tableStmts_effect (hes : ∀ e ∈ es, e.stmt = checkTableQuery ∨ e.stmt = createTableSql)
    (hrep : Replays sv db es db') :
    db' = db ∨ (db "account_prize" = none ∧ db' = withPrizeTable db) := by
  induction hrep with
  | nil => exact Or.inl rfl
  | @cons log db' e hrep ha ih =>
    have ih := ih fun e he => hes e (List.mem_cons_of_mem _ he)
    have hquiet : e.answer.table? = none → e.answer.apply db' = db' := by
      intro ht
      funext table
      exact apply_frame (by simp [ht])
    rcases hes e List.mem_cons_self with hs | hs
    · have ht : e.answer.table? = none := by
        cases ht : e.answer.table? with
        | none => rfl
        | some table =>
          have := respond_table? (ha ▸ ht)
          simp [hs, checkTableQuery, Statement.table?] at this
      rwa [hquiet ht]
    · rw [hs] at ha
      cases hp : db' "account_prize" with
      | some tb =>
        have herr : e.answer = .error erTableExistsError := by
          simp [ha, createTableSql, Server.respond, Statement.refused, hp]
        rwa [hquiet (by rw [herr]; rfl)]
      | none =>
        have hmade : e.answer = .created "account_prize" prizeColumns := by
          simp [ha, createTableSql, Server.respond, Statement.refused, hp]
        rw [hmade]
        rcases ih with rfl | ⟨_, rfl⟩
        · exact Or.inr ⟨hp, rfl⟩
        · simp [withPrizeTable] at hp

/-- The columns an INSERT gives and their values. -/
def insertGiven (account : Bytes) (world charguid item count : CInt) (timestamp : BitVec 64) :
    List (String × Value) :=
  [("account", .text (cString account)), ("world", .int world.toInt),
    ("charguid", .int charguid.toInt), ("itemid", .int item.toInt), ("itemnum", .int count.toInt),
    ("isget", .int 0), ("validtime", .int (timestampU4 timestamp).toInt)]

theorem insertGiven_lookup {t : BitVec 64} {name : String} {v : Value}
    (h : (name, v) ∈ insertGiven account world charguid item count t) :
    (insertGiven account world charguid item count t).lookup name = some v := by
  simp only [insertGiven, List.mem_cons, List.not_mem_nil, or_false, Prod.mk.injEq] at h
  rcases h with ⟨rfl, rfl⟩ | ⟨rfl, rfl⟩ | ⟨rfl, rfl⟩ | ⟨rfl, rfl⟩ | ⟨rfl, rfl⟩ | ⟨rfl, rfl⟩ |
    ⟨rfl, rfl⟩ <;> rfl

theorem insert_answer {t : BitVec 64} {a : Answer} {n : Nat}
    (ha : a = sv.respond db insertQuery
      ((insertParams account world charguid item count t).map MysqlBind.value))
    (hr : reply a = .ok n) :
    ∃ tb row, db "account_prize" = some tb ∧ a = .inserted "account_prize" row ∧
      ∀ p ∈ insertGiven account world charguid item count t,
        sv.Stored tb.columns row p.1 p.2 := by
  cases a with
  | rows k =>
    unfold Server.respond insertQuery at ha
    split at ha
    next => cases ha
    next =>
      dsimp only at ha
      split at ha
      next => split at ha <;> cases ha
      next => cases ha
  | error e => cases hr
  | created table columns =>
    obtain ⟨hq, _⟩ := respond_created ha.symm
    cases hq
  | inserted table row =>
    obtain ⟨columns, values, tb, vs, hq, htb, hcols, hvs, hrow⟩ := respond_inserted ha.symm
    cases hq
    have hgiven : some vs = some ((insertGiven account world charguid item count t).map Prod.snd) :=
      hvs.symm.trans rfl
    cases hgiven
    refine ⟨tb, row, htb, rfl, ?_⟩
    rintro ⟨name, v⟩ hp
    apply newRow_stored hrow
    · apply hcols
      simp only [insertGiven, List.mem_cons, List.not_mem_nil, or_false, Prod.mk.injEq] at hp
      rcases hp with h | h | h | h | h | h | h <;> simp [h.1]
    · exact insertGiven_lookup hp

/-- The prize table as an INSERT finds it after the table check. -/
def prizeTable (db : Database) : Table := (db "account_prize").getD ⟨prizeColumns, [], 1⟩

def withPrize (db : Database) (row : Row) : Database :=
  Function.update db "account_prize" (some { prizeTable db with
    rows := (prizeTable db).rows ++ [row], nextId := (prizeTable db).nextId + 1 })

/-- `account` has a column for the name, and one of its rows has this name. -/
def AccountExists (sv : Sql.Server) (db : Database) (account : Bytes) : Prop :=
  ∃ tb row name, db "account" = some tb ∧ (tb.column? "name").isSome ∧ row ∈ tb.rows ∧
    row.lookup "name" = some name ∧ sv.same name (.text (cString account))

theorem AccountLog.accountExists (h : AccountLog g i account es (.ok ()))
    (hrep : Replays sv db es db') : AccountExists sv db account := by
  cases h with
  | @found n hn =>
    obtain ⟨ha, _⟩ := replays_singleton.mp hrep
    have ha : sv.respond db selectAccount [.text (cString account)] = .rows n := ha.symm
    cases htb : db "account" with
    | none => simp [Server.respond, selectAccount, Statement.refused, htb] at ha
    | some tb =>
      unfold Server.respond at ha
      split at ha
      next => cases ha
      next hrefused =>
        have hcolumn : (tb.column? "name").isSome := by
          by_contra hnone
          simp [selectAccount, Statement.refused, htb, hnone] at hrefused
        simp only [selectAccount, htb, Answer.rows.injEq] at ha
        have hne : sv.matching tb "name" (.text (cString account)) ≠ [] := by
          intro h0
          simp [h0] at ha
          exact hn ha.symm
        obtain ⟨row, hrow⟩ := List.exists_mem_of_ne_nil _ hne
        obtain ⟨hmem, hsame⟩ := List.mem_filter.mp hrow
        obtain ⟨name, hname, hsame⟩ := (Option.any_eq_true _ _).mp hsame
        exact ⟨tb, row, name, htb, hcolumn, hmem, hname, hsame⟩

theorem AccountLog.params (h : AccountLog g i account es (.ok ())) :
    ∀ e ∈ es, e.params = [.text (cString account)] := by
  cases h with
  | found => simp [sent]

theorem SendLog.checked (h : SendLog g i account world charguid item count es (.ok ())) :
    (∃ e ∈ es, e.stmt = selectAccount) ∧
      ∀ e ∈ es, e.stmt = selectAccount → e.params = [.text (cString account)] := by
  cases h with
  | @prize es es' es'' _ haccount htable hprize =>
    constructor
    · cases haccount with
      | found =>
        exact ⟨_, List.mem_append_right _ (List.mem_append_right _ List.mem_cons_self), rfl⟩
    · intro e he hst
      rcases List.mem_append.mp he with he | he
      · cases (hprize.stmt e he).symm.trans hst
      · rcases List.mem_append.mp he with he | he
        · rcases htable.stmt e he with h | h <;> cases h.symm.trans hst
        · exact haccount.params e he

/-- A run that returns has found the account and appended one row. -/
theorem SendLog.effect_ok (h : SendLog g i account world charguid item count es (.ok ()))
    (hrep : Replays sv db es db') :
    AccountExists sv db account ∧ ∃ y row, db' = withPrize db row ∧
      ∀ p ∈ insertGiven account world charguid item count (g y).clock,
        sv.Stored (prizeTable db).columns row p.1 p.2 := by
  cases h with
  | @prize es es' es'' _ haccount htable hprize =>
    obtain ⟨db₂, hrep₂, hrep''⟩ := replays_split hrep
    obtain ⟨db₁, hrep₁, hrep'⟩ := replays_split hrep₂
    obtain rfl := haccount.keeps hrep₁
    refine ⟨haccount.accountExists hrep₁, ?_⟩
    have htables := tableStmts_effect htable.stmt hrep'
    cases hprize with
    | @stored a n y hr =>
      obtain ⟨ha, rfl⟩ := replays_singleton.mp hrep''
      obtain ⟨tb, row, htb, hrow, hstored⟩ := insert_answer ha hr
      have hans : (sent i insertQuery (insertValues g account world charguid item count y)
        a).answer = .inserted "account_prize" row := hrow
      refine ⟨y, row, ?_, ?_⟩
      · rw [hans]
        rcases htables with rfl | ⟨hnone, rfl⟩
        · simp [Answer.apply, withPrize, prizeTable, htb]
        · simp [Answer.apply, withPrize, withPrizeTable, prizeTable, hnone]
      · have hcol : prizeTable db₁ = tb := by
          rcases htables with rfl | ⟨hnone, rfl⟩
          · simp [prizeTable, htb]
          · simp [withPrizeTable] at htb
            simp [prizeTable, hnone, htb]
        rwa [hcol]

theorem PrizeLog.keeps {e : Bytes}
    (h : PrizeLog g i account world charguid item count es (.error e))
    (hdel : ∀ e ∈ es, e.delivered = true) (hrep : Replays sv db es db') : db' = db := by
  cases h with
  | unprepared =>
    obtain ⟨_, rfl⟩ := replays_singleton.mp hrep
    rfl
  | refused =>
    obtain ⟨_, rfl⟩ := replays_singleton.mp hrep
    rfl
  | faulted _ hes hlen =>
    have hnil : es = [] := by
      apply List.eq_nil_iff_forall_not_mem.mpr
      intro e he
      have h1 := hdel e he
      rw [(hes e he).2] at h1
      cases h1
    subst hnil
    cases hrep
    rfl

/-- A run that throws, every answer having been delivered, has at most created
the prize table, and that only for an account that exists. -/
theorem SendLog.effect_error {e : Bytes}
    (h : SendLog g i account world charguid item count es (.error e))
    (hdel : ∀ e ∈ es, e.delivered = true) (hrep : Replays sv db es db') :
    db' = db ∨ (db "account_prize" = none ∧ db' = withPrizeTable db ∧
      AccountExists sv db account) := by
  cases h with
  | unsent =>
    cases hrep
    exact Or.inl rfl
  | account haccount => exact Or.inl (haccount.keeps hrep)
  | table haccount htable =>
    obtain ⟨db₁, hrep₁, hrep'⟩ := replays_split hrep
    obtain rfl := haccount.keeps hrep₁
    rcases tableStmts_effect htable.stmt hrep' with rfl | ⟨hnone, rfl⟩
    · exact Or.inl rfl
    · exact Or.inr ⟨hnone, rfl, haccount.accountExists hrep₁⟩
  | prize haccount htable hprize =>
    obtain ⟨db₂, hrep₂, hrep''⟩ := replays_split hrep
    obtain ⟨db₁, hrep₁, hrep'⟩ := replays_split hrep₂
    obtain rfl := haccount.keeps hrep₁
    obtain rfl := hprize.keeps (fun e he => hdel e (List.mem_append_left _ he)) hrep''
    rcases tableStmts_effect htable.stmt hrep' with rfl | ⟨hnone, rfl⟩
    · exact Or.inl rfl
    · exact Or.inr ⟨hnone, rfl, haccount.accountExists hrep₁⟩

/-! The rows a run appends when answers may be lost on the way back. -/

def LogEntry.appends (e : LogEntry κ) : Bool := (e.answer.row? "account_prize").isSome

theorem appends_insert (hrep : Replays sv db es db') {e : LogEntry κ} (he : e ∈ es)
    (ha : e.appends = true) : ∃ columns values, e.stmt = .insert "account_prize" columns values := by
  obtain ⟨d, hd⟩ := replays_mem hrep he
  unfold LogEntry.appends at ha
  cases hans : e.answer with
  | rows n => simp [hans, Answer.row?] at ha
  | error n => simp [hans, Answer.row?] at ha
  | created table columns => simp [hans, Answer.row?] at ha
  | inserted table row =>
    have ht : table = "account_prize" := by simpa [hans, Answer.row?] using ha
    obtain ⟨columns, values, _, _, hst, _⟩ := respond_inserted (hd.symm.trans hans)
    exact ⟨columns, values, ht ▸ hst⟩

theorem AccountLog.appends (h : AccountLog g i account es r) (hrep : Replays sv db es db') :
    ∀ e ∈ es, e.appends = false := by
  intro e he
  by_contra ha
  obtain ⟨columns, values, hst⟩ := appends_insert hrep he (by simpa using ha)
  simp [h.stmt e he, selectAccount] at hst

theorem TableLog.appends (h : TableLog g i es r) (hrep : Replays sv db es db') :
    ∀ e ∈ es, e.appends = false := by
  intro e he
  by_contra ha
  obtain ⟨columns, values, hst⟩ := appends_insert hrep he (by simpa using ha)
  rcases h.stmt e he with hs | hs <;> simp [hs, checkTableQuery, createTableSql] at hst

/-- A run that throws has appended a row only by an INSERT whose answer was
lost. -/
theorem SendLog.appends_error {e : Bytes}
    (h : SendLog g i account world charguid item count es (.error e))
    (hrep : Replays sv db es db') : ∀ x ∈ es, x.appends = true → x.delivered = false := by
  intro x hx ha
  cases h with
  | unsent => simp at hx
  | account haccount => simp [haccount.appends hrep x hx] at ha
  | table haccount htable =>
    obtain ⟨db₁, hrep₁, hrep'⟩ := replays_split hrep
    rcases List.mem_append.mp hx with hx | hx
    · simp [htable.appends hrep' x hx] at ha
    · simp [haccount.appends hrep₁ x hx] at ha
  | prize haccount htable hprize =>
    obtain ⟨db₂, hrep₂, hrep''⟩ := replays_split hrep
    obtain ⟨db₁, hrep₁, hrep'⟩ := replays_split hrep₂
    rcases List.mem_append.mp hx with hx | hx
    · cases hprize with
      | unprepared =>
        obtain rfl := List.mem_singleton.mp hx
        cases ha
      | refused =>
        obtain rfl := List.mem_singleton.mp hx
        cases ha
      | faulted _ hes _ => exact (hes x hx).2
    · rcases List.mem_append.mp hx with hx | hx
      · simp [htable.appends hrep' x hx] at ha
      · simp [haccount.appends hrep₁ x hx] at ha

/-- A run that returns has appended a row once, by an INSERT whose answer it
has got. -/
theorem SendLog.appends_ok (h : SendLog g i account world charguid item count es (.ok ()))
    (hrep : Replays sv db es db') :
    es.countP LogEntry.appends = 1 ∧ ∀ x ∈ es, x.appends = true → x.delivered = true := by
  cases h with
  | @prize es es' es'' _ haccount htable hprize =>
    obtain ⟨db₂, hrep₂, hrep''⟩ := replays_split hrep
    obtain ⟨db₁, hrep₁, hrep'⟩ := replays_split hrep₂
    have h₁ : es.countP LogEntry.appends = 0 :=
      List.countP_eq_zero.mpr fun x hx => by simp [haccount.appends hrep₁ x hx]
    have h₂ : es'.countP LogEntry.appends = 0 :=
      List.countP_eq_zero.mpr fun x hx => by simp [htable.appends hrep' x hx]
    cases hprize with
    | @stored a n y hr =>
      obtain ⟨ha, _⟩ := replays_singleton.mp hrep''
      obtain ⟨tb, row, _, hrow, _⟩ := insert_answer ha hr
      have hins : a = .inserted "account_prize" row := hrow
      subst hins
      refine ⟨?_, ?_⟩
      · rw [List.countP_append, List.countP_append, h₁, h₂]
        rfl
      · intro x hx ha
        rcases List.mem_append.mp hx with hx | hx
        · rw [List.mem_singleton.mp hx]
          rfl
        · rcases List.mem_append.mp hx with hx | hx
          · simp [htable.appends hrep' x hx] at ha
          · simp [haccount.appends hrep₁ x hx] at ha

end PrizeSender
