import PrizeSender.Server

namespace PrizeSender

open Prog Sql

variable {κ ι : Type} {sv : Sql.Server} {g : ι → Choice} {i : κ} {l : Client}
variable {m : List (LogEntry κ)}

theorem reply_eq_ok {a : Answer} {n : Nat} (h : reply a = .ok n) : (a = .rows n) ∨ n = 0 := by
  cases a with
  | rows k => exact Or.inl (congrArg Answer.rows (Except.ok.inj h))
  | created t cs => exact Or.inr (Except.ok.inj h).symm
  | inserted t row => exact Or.inr (Except.ok.inj h).symm
  | error errno => cases h

theorem reply_eq_error {a : Answer} {errno : Errno} (h : reply a = .error errno) :
    a = .error errno := by
  cases a with
  | rows k => cases h
  | created t cs => cases h
  | inserted t row => cases h
  | error errno => exact congrArg Answer.error (Except.error.inj h)

def sent (i : κ) (q : Statement) (ps : List Value) (a : Answer) : LogEntry κ := ⟨i, q, ps, a, true⟩

/-- Some call may end in another way than by the server's answer. -/
def Faults (g : ι → Choice) : Prop := ∃ y, (g y).fails = true

/-- The statements the account check leaves in the log of its sender, newest
first, with its result. -/
inductive AccountLog (g : ι → Choice) (i : κ) (account : Bytes) :
    List (LogEntry κ) → Except Bytes Unit → Prop
  | found {n} : n ≠ 0 →
      AccountLog g i account [sent i selectAccount [.text (cString account)] (.rows n)] (.ok ())
  | missing {a e} : reply a = .ok 0 →
      AccountLog g i account [sent i selectAccount [.text (cString account)] a] (.error e)
  | unprepared {db errno e} : selectAccount.refused db = some errno →
      AccountLog g i account [sent i selectAccount [] (.error errno)] (.error e)
  | refused {errno e} :
      AccountLog g i account [sent i selectAccount [.text (cString account)] (.error errno)]
        (.error e)
  | faulted {es e} : Faults g → (∀ e ∈ es, e.stmt = selectAccount) →
      AccountLog g i account es (.error e)

inductive TableLog (g : ι → Choice) (i : κ) : List (LogEntry κ) → Except Bytes Unit → Prop
  | found {a n} : reply a = .ok n → TableLog g i [sent i checkTableQuery [] a] (.ok ())
  | made {b n} : reply b = .ok n → TableLog g i [sent i createTableSql [] b,
      sent i checkTableQuery [] (.error erNoSuchTable)] (.ok ())
  | unmade {errno e} : TableLog g i [sent i createTableSql [] (.error errno),
      sent i checkTableQuery [] (.error erNoSuchTable)] (.error e)
  | refused {errno e} : errno ≠ erNoSuchTable →
      TableLog g i [sent i checkTableQuery [] (.error errno)] (.error e)
  | faulted {es r} : Faults g → (∀ e ∈ es, e.stmt = checkTableQuery ∨ e.stmt = createTableSql) →
      TableLog g i es r

/-- The values bound to the INSERT when the clock is read under choice `y`. -/
def insertValues (g : ι → Choice) (account : Bytes) (world charguid item count : CInt) (y : ι) :
    List Value :=
  (insertParams account world charguid item count (g y).clock).map MysqlBind.value

inductive PrizeLog (g : ι → Choice) (i : κ) (account : Bytes) (world charguid item count : CInt) :
    List (LogEntry κ) → Except Bytes Unit → Prop
  | stored {a n y} : reply a = .ok n → PrizeLog g i account world charguid item count
      [sent i insertQuery (insertValues g account world charguid item count y) a] (.ok ())
  | unprepared {db errno e} : insertQuery.refused db = some errno →
      PrizeLog g i account world charguid item count
        [sent i insertQuery [] (.error errno)] (.error e)
  | refused {errno y e} : PrizeLog g i account world charguid item count
      [sent i insertQuery (insertValues g account world charguid item count y) (.error errno)]
      (.error e)
  | faulted {es e} : Faults g → (∀ e ∈ es, e.stmt = insertQuery ∧ e.delivered = false) →
      es.length ≤ 1 → PrizeLog g i account world charguid item count es (.error e)

/-- The log of one run of `processSendPrize`. -/
inductive SendLog (g : ι → Choice) (i : κ) (account : Bytes) (world charguid item count : CInt) :
    List (LogEntry κ) → Except Bytes Unit → Prop
  | unsent {e} : Faults g → SendLog g i account world charguid item count [] (.error e)
  | account {es e} : AccountLog g i account es (.error e) →
      SendLog g i account world charguid item count es (.error e)
  | table {es es' e} : AccountLog g i account es (.ok ()) → TableLog g i es' (.error e) →
      SendLog g i account world charguid item count (es' ++ es) (.error e)
  | prize {es es' es'' r} : AccountLog g i account es (.ok ()) → TableLog g i es' (.ok ()) →
      PrizeLog g i account world charguid item count es'' r →
      SendLog g i account world charguid item count (es'' ++ (es' ++ es)) r

variable [DecidableEq κ]

/-- Whatever the other senders do, sender `i` ends `p`, under choices that `g`
gives, with a result and a log of its own as `P` says. -/
def Spec {α : Type} (sv : Sql.Server) (g : ι → Choice) (i : κ) (p : Db α)
    (P : Except Bytes α → List (LogEntry κ) → Prop) (l : Client) (m : List (LogEntry κ)) : Prop :=
  ∀ s, mine i s = m →
    p.run.wp (fun y => serve sv i (g y)) (.keeping (mine i)) (fun r _ s => P r (mine i s)) l s

section

variable {α β : Type} {P : Except Bytes β → List (LogEntry κ) → Prop}

theorem mine_record_self {s : ServerState κ} {e : LogEntry κ} (h : e.sender = i) :
    mine i (s.record e) = e :: mine i s := by
  simp [mine, ServerState.record, h]

theorem spec_seq {p : Db α} {f : α → Db β}
    (h : Spec sv g i p (fun r m => match r with
      | .ok a => ∀ l, Spec sv g i (f a) P l m
      | .error e => P (.error e) m) l m) : Spec sv g i (p >>= f) P l m := by
  intro s hs
  apply wp_seq
  apply wp_mono (h s hs)
  rintro (e | a) l s hr
  · intro s' hs'
    change mine i s' = mine i s at hs'
    rw [hs']
    exact hr
  · exact hr l s rfl

theorem spec_mono {P' : Except Bytes β → List (LogEntry κ) → Prop} {p : Db β}
    (h : Spec sv g i p P l m) (hp : ∀ r m, P r m → P' r m) : Spec sv g i p P' l m :=
  fun s hs => wp_mono (h s hs) fun _ _ _ => hp _ _

theorem spec_throw {e : Bytes} (h : P (.error e) m) : Spec sv g i (throw e) P l m := by
  intro s hs
  apply wp_throw
  intro s' hs'
  change mine i s' = mine i s at hs'
  rw [hs', hs]
  exact h

theorem spec_return {a : β} (h : P (.ok a) m) : Spec sv g i (pure a) P l m := by
  intro s hs
  apply wp_return
  intro s' hs'
  change mine i s' = mine i s at hs'
  rw [hs', hs]
  exact h

theorem spec_private {c : DbCall} {f : c.Reply → Db β} {back : Choice → c.Reply}
    {own : Choice → Client}
    (quiet : ∀ x (t : ServerState κ), serve sv i x l t c = (back x, own x, t))
    (h : ∀ y, Spec sv g i (f (back (g y))) P (own (g y)) m) :
    Spec sv g i (Db.call c >>= f) P l m :=
  fun s hs => wp_lift_private (fun y => back (g y)) (fun y => own (g y))
    (fun y => quiet (g y)) fun y => h y s hs

theorem spec_last {c : DbCall} {P : Except Bytes c.Reply → List (LogEntry κ) → Prop}
    {back : Choice → c.Reply} {own : Choice → Client}
    (quiet : ∀ x (t : ServerState κ), serve sv i x l t c = (back x, own x, t))
    (h : ∀ y, P (.ok (back (g y))) m) : Spec sv g i (Db.call c) P l m := by
  intro s hs s' hs' y t ht
  change mine i s' = mine i s at hs'
  change mine i t = mine i (serve sv i (g y) l s' c).2.2 at ht
  simp only [quiet] at ht ⊢
  rw [ht, hs', hs]
  exact h y

theorem submit_cases (sv : Sql.Server) (i : κ) (x : Choice) (s : ServerState κ) (q : Statement)
    (ps : List Value) :
    (∃ n a s', submit sv i x s q ps = (.ok n, s') ∧ reply a = .ok n ∧
      mine i s' = sent i q ps a :: mine i s) ∨
    (∃ errno s', submit sv i x s q ps = (.error errno, s') ∧
      mine i s' = sent i q ps (.error errno) :: mine i s) ∨
    (∃ errno es s', submit sv i x s q ps = (.error errno, s') ∧ x.fails = true ∧ es.length ≤ 1 ∧
      (∀ e ∈ es, e.stmt = q ∧ e.delivered = false) ∧ mine i s' = es ++ mine i s) := by
  cases ho : x.outcome with
  | answered =>
    cases hr : reply (sv.respond s.db q ps) with
    | ok n =>
      refine Or.inl ⟨n, _, _, ?_, hr, mine_record_self rfl⟩
      simp [submit, ho, hr]
      rfl
    | error errno =>
      refine Or.inr (Or.inl ⟨errno, s.record ⟨i, q, ps, .error errno, true⟩, ?_,
        mine_record_self rfl⟩)
      simp [submit, ho, reply_eq_error hr, reply]
  | refused errno =>
    refine Or.inr (Or.inr ⟨errno, [], s, by rw [submit, ho], ?_, by simp, by simp, rfl⟩)
    simp [Choice.fails, ho]
  | lost errno =>
    refine Or.inr (Or.inr ⟨errno, [_], _, by rw [submit, ho], ?_, by simp, ?_,
      mine_record_self rfl⟩)
    · simp [Choice.fails, ho]
    · simp

theorem spec_realQuery {conn : Mysql} {q : Statement} {f : Bool → Db β}
    (hok : ∀ a n, reply a = .ok n →
      Spec sv g i (f false) P { l with errno := 0 } (sent i q [] a :: m))
    (hrefused : ∀ errno,
      Spec sv g i (f true) P { l with errno := errno } (sent i q [] (.error errno) :: m))
    (hfault : Faults g → ∀ l' es, (∀ e ∈ es, e.stmt = q ∧ e.delivered = false) →
      es.length ≤ 1 → Spec sv g i (f true) P l' (es ++ m)) :
    Spec sv g i (mysqlRealQuery conn q >>= f) P l m := by
  intro s hs
  apply wp_lift
  intro s' hs' y
  change mine i s' = mine i s at hs'
  rw [← hs, ← hs'] at hok hrefused hfault
  obtain ⟨n, a, t, hsub, ha, ht⟩ | ⟨errno, t, hsub, ht⟩ |
    ⟨errno, es, t, hsub, hy, hlen, hes, ht⟩ := submit_cases sv i (g y) s' q []
  · simp only [serve, hsub]
    exact hok a n ha t ht
  · simp only [serve, hsub]
    exact hrefused errno t ht
  · simp only [serve, hsub]
    exact hfault ⟨y, hy⟩ { l with errno := errno } es hes hlen t ht

theorem spec_execute {stmt : MysqlStmt} {q : Statement} {f : Bool → Db β}
    (hq : l.query stmt = some q)
    (hok : ∀ a n, reply a = .ok n →
      Spec sv g i (f false) P { l with numRows := Function.update l.numRows stmt n }
        (sent i q (l.params stmt) a :: m))
    (hrefused : ∀ errno, Spec sv g i (f true) P l (sent i q (l.params stmt) (.error errno) :: m))
    (hfault : Faults g → ∀ es, (∀ e ∈ es, e.stmt = q ∧ e.delivered = false) →
      es.length ≤ 1 → Spec sv g i (f true) P l (es ++ m)) :
    Spec sv g i (mysqlStmtExecute stmt >>= f) P l m := by
  intro s hs
  apply wp_lift
  intro s' hs' y
  change mine i s' = mine i s at hs'
  rw [← hs, ← hs'] at hok hrefused hfault
  obtain ⟨n, a, t, hsub, ha, ht⟩ | ⟨errno, t, hsub, ht⟩ |
    ⟨errno, es, t, hsub, hy, hlen, hes, ht⟩ := submit_cases sv i (g y) s' q (l.params stmt)
  · simp only [serve, hq, hsub]
    exact hok a n ha t ht
  · simp only [serve, hq, hsub]
    exact hrefused errno t ht
  · simp only [serve, hq, hsub]
    exact hfault ⟨y, hy⟩ es hes hlen t ht

theorem spec_prepare {stmt : MysqlStmt} {q : Statement} {f : Bool → Db β}
    (hok : Spec sv g i (f false) P { l with query := Function.update l.query stmt (some q) } m)
    (hrefused : ∀ db errno, q.refused db = some errno →
      Spec sv g i (f true) P l (sent i q [] (.error errno) :: m))
    (hfault : Faults g → Spec sv g i (f true) P l m) :
    Spec sv g i (mysqlStmtPrepare stmt q >>= f) P l m := by
  intro s hs
  apply wp_lift
  intro s' hs' y
  change mine i s' = mine i s at hs'
  rw [← hs, ← hs'] at hok hrefused hfault
  cases hy : (g y).fails with
  | true =>
    simp only [serve, hy, if_true]
    exact hfault ⟨y, hy⟩ s' rfl
  | false =>
    simp only [serve, hy, Bool.false_eq_true, if_false]
    cases hr : q.refused s'.db with
    | none => exact hok s' rfl
    | some errno => exact hrefused s'.db errno hr _ (mine_record_self rfl)

end

end PrizeSender
