import PrizeSender.Server

namespace PrizeSender

open Prog Sql

variable {κ : Type} {sv : Sql.Server} {db db' db'' : Database} {log log' : List (LogEntry κ)}
variable {table : String}

theorem replays_split (h : Replays sv db (log' ++ log) db'') :
    ∃ db', Replays sv db log db' ∧ Replays sv db' log' db'' := by
  induction log' generalizing db'' with
  | nil => exact ⟨db'', h, .nil⟩
  | cons e log' ih =>
    cases h with
    | cons h ha =>
      obtain ⟨db', h₁, h₂⟩ := ih h
      exact ⟨db', h₁, h₂.cons ha⟩

theorem replays_around {after before : List (LogEntry κ)} {e : LogEntry κ}
    (h : Replays sv db (after ++ e :: before) db') :
    ∃ d, Replays sv db before d ∧ e.answer = sv.respond d e.stmt e.params ∧
      Replays sv (e.answer.apply d) after db' := by
  obtain ⟨d', h, hafter⟩ := replays_split h
  cases h with
  | cons h ha => exact ⟨_, h, ha, hafter⟩

theorem replays_mem (h : Replays sv db log db') {e : LogEntry κ} (he : e ∈ log) :
    ∃ d, e.answer = sv.respond d e.stmt e.params := by
  obtain ⟨after, before, rfl⟩ := List.mem_iff_append.mp he
  obtain ⟨d, _, ha, _⟩ := replays_around h
  exact ⟨d, ha⟩

theorem replays_singleton {e : LogEntry κ} :
    Replays sv db [e] db' ↔ e.answer = sv.respond db e.stmt e.params ∧ db' = e.answer.apply db := by
  constructor
  · intro h
    cases h with
    | cons h ha =>
      cases h
      exact ⟨ha, rfl⟩
  · rintro ⟨ha, rfl⟩
    exact .cons .nil ha

theorem rowsOf_apply {a : Answer} {q : Statement} {ps : List Value} (ha : a = sv.respond db q ps) :
    rowsOf (a.apply db) table = rowsOf db table ++ (a.row? table).toList := by
  cases a with
  | rows n => simp [Answer.apply, Answer.row?]
  | error e => simp [Answer.apply, Answer.row?]
  | created t columns =>
    obtain ⟨_, hnone⟩ := respond_created ha.symm
    by_cases ht : t = table
    · subst ht
      simp [Answer.apply, Answer.row?, rowsOf, hnone]
    · have hf : (Answer.created t columns).apply db table = db table :=
        apply_frame (by simpa [Answer.table?] using ht)
      simp [rowsOf, hf, Answer.row?]
  | inserted t row =>
    obtain ⟨_, _, tb, _, _, htb, _⟩ := respond_inserted ha.symm
    by_cases ht : t = table
    · subst ht
      simp [Answer.apply, Answer.row?, rowsOf, htb]
    · have hf : (Answer.inserted t row).apply db table = db table :=
        apply_frame (by simpa [Answer.table?] using ht)
      simp [rowsOf, hf, Answer.row?, ht]

/-- A table's rows are the earlier ones and the inserted ones, in that order. -/
theorem rowsOf_replays (h : Replays sv db log db') :
    rowsOf db' table = rowsOf db table ++
      (log.filterMap fun e => e.answer.row? table).reverse := by
  induction h with
  | nil => simp
  | @cons log db' e _ ha ih =>
    rw [rowsOf_apply ha, ih]
    cases hrow : e.answer.row? table with
    | none => simp [hrow]
    | some row => simp [hrow]

theorem isSome_apply (table : String) {a : Answer} {q : Statement} {ps : List Value}
    (ha : a = sv.respond db q ps) :
    (a.apply db table).isSome.toNat = (db table).isSome.toNat + (a.creates table).toNat := by
  cases a with
  | rows n => simp [Answer.apply, Answer.creates]
  | error e => simp [Answer.apply, Answer.creates]
  | created t columns =>
    obtain ⟨_, hnone⟩ := respond_created ha.symm
    by_cases ht : t = table
    · subst ht
      simp [Answer.apply, Answer.creates, hnone]
    · have hne : table ≠ t := Ne.symm ht
      simp [Answer.apply, Answer.creates, ht, Function.update_of_ne hne]
  | inserted t row =>
    by_cases ht : table = t
    · subst ht
      simp [Answer.apply, Answer.creates]
    · simp [Answer.apply, Answer.creates, Function.update_of_ne ht]

theorem isSome_apply_iff {a : Answer} {q : Statement} {ps : List Value}
    (ha : a = sv.respond db q ps) :
    (a.apply db table).isSome ↔ (db table).isSome ∨ a.creates table = true := by
  have h := isSome_apply table ha
  cases h₁ : (a.apply db table).isSome <;> cases h₂ : (db table).isSome <;>
    cases h₃ : a.creates table <;> simp_all

/-- A table is created once if it was absent, and never if it was there. -/
theorem creates_replays (table : String) (h : Replays sv db log db') :
    (db' table).isSome.toNat =
      (db table).isSome.toNat + log.countP fun e => e.answer.creates table := by
  induction h with
  | nil => simp
  | @cons log db' e _ ha ih =>
    rw [isSome_apply table ha, ih, List.countP_cons]
    cases e.answer.creates table <;> simp [Nat.add_assoc]

theorem replays_frame (h : Replays sv db log db')
    (hlog : ∀ e ∈ log, e.answer.table? ≠ some table) : db' table = db table := by
  induction h with
  | nil => rfl
  | cons _ _ ih =>
    rw [apply_frame (hlog _ List.mem_cons_self)]
    exact ih fun e he => hlog e (List.mem_cons_of_mem _ he)

theorem replays_frame_stmt (h : Replays sv db log db')
    (hlog : ∀ e ∈ log, e.stmt.table? ≠ some table) : db' table = db table := by
  apply replays_frame h
  intro e he ht
  obtain ⟨d, hd⟩ := replays_mem h he
  exact hlog e he (respond_table? (hd ▸ ht))

/-- A table found after an answer was there with these columns, or the answer
has made it. -/
theorem columns_apply {st : Statement} {params : List Value} {tb : Table}
    (htb : (sv.respond db st params).apply db table = some tb) :
    (∃ tb₀, db table = some tb₀ ∧ tb.columns = tb₀.columns) ∨
    (db table = none ∧ st = .createTable table tb.columns) := by
  cases ha : sv.respond db st params with
  | rows n => exact Or.inl ⟨tb, by simpa [ha, Answer.apply] using htb, rfl⟩
  | error n => exact Or.inl ⟨tb, by simpa [ha, Answer.apply] using htb, rfl⟩
  | created t columns =>
    rw [ha] at htb
    by_cases ht : table = t
    · subst ht
      obtain ⟨hst, hnone⟩ := respond_created ha
      have hcol : tb.columns = columns := by
        simp [Answer.apply] at htb
        simp [← htb]
      exact Or.inr ⟨hnone, hcol ▸ hst⟩
    · exact Or.inl ⟨tb, by simpa [Answer.apply, Function.update_of_ne ht] using htb, rfl⟩
  | inserted t row =>
    rw [ha] at htb
    by_cases ht : table = t
    · subst ht
      simp only [Answer.apply, Function.update_self, Option.map_eq_some_iff] at htb
      obtain ⟨tb₀, htb₀, rfl⟩ := htb
      exact Or.inl ⟨tb₀, htb₀, rfl⟩
    · exact Or.inl ⟨tb, by simpa [Answer.apply, Function.update_of_ne ht] using htb, rfl⟩

theorem columns_replays (h : Replays sv db log db') {tb : Table} (htb : db' table = some tb) :
    (∃ tb₀, db table = some tb₀ ∧ tb.columns = tb₀.columns) ∨
    (db table = none ∧ ∃ e ∈ log, e.stmt = .createTable table tb.columns) := by
  induction h generalizing tb with
  | nil => exact Or.inl ⟨tb, htb, rfl⟩
  | @cons log db' e h ha ih =>
    rw [ha] at htb
    rcases columns_apply htb with ⟨tb', htb', hcol⟩ | ⟨hnone, hst⟩
    · rw [hcol]
      rcases ih htb' with h₀ | ⟨h₀, e', he', hst⟩
      · exact Or.inl h₀
      · exact Or.inr ⟨h₀, e', List.mem_cons_of_mem _ he', hst⟩
    · refine Or.inr ⟨?_, e, List.mem_cons_self, hst⟩
      have hc := creates_replays table h
      rw [hnone] at hc
      cases h₀ : db table with
      | none => rfl
      | some tb₀ =>
        simp [h₀] at hc
        omega

/-! What one call does to the server. -/

variable {i : κ} {x : Choice} {l : Client} {s s₀ : ServerState κ} {c : DbCall}

/-- A statement sent by `i` under choice `x` and acted on. -/
structure Acted (sv : Sql.Server) (i : κ) (x : Choice) (s : ServerState κ) (e : LogEntry κ) :
    Prop where
  sender : e.sender = i
  answer : e.answer = sv.respond s.db e.stmt e.params
  delivered : e.delivered = !x.loses

theorem submit_state (sv : Sql.Server) (i : κ) (x : Choice) (s : ServerState κ) (q : Statement)
    (ps : List Value) : (submit sv i x s q ps).2 = s ∨
      ∃ e, Acted sv i x s e ∧ (submit sv i x s q ps).2 = s.record e := by
  unfold submit
  split
  next ho => exact Or.inr ⟨_, ⟨rfl, rfl, by simp [Choice.loses, ho]⟩, rfl⟩
  next => exact Or.inl rfl
  next ho => exact Or.inr ⟨_, ⟨rfl, rfl, by simp [Choice.loses, ho]⟩, rfl⟩

/-- A call leaves the server alone, or makes it act on one statement. -/
theorem serve_state (sv : Sql.Server) (i : κ) (x : Choice) (l : Client) (s : ServerState κ)
    (c : DbCall) : (serve sv i x l s c).2.2 = s ∨
    ∃ e, Acted sv i x s e ∧ (serve sv i x l s c).2.2 = s.record e := by
  cases c with
  | mysqlStmtPrepare stmt q =>
    simp only [serve]
    split
    next => exact Or.inl rfl
    next hx =>
      split
      next errno hr =>
        refine Or.inr ⟨_, ⟨rfl, ?_, ?_⟩, rfl⟩
        · simp [Server.respond, hr]
        · have ho : x.outcome = .answered := by simpa [Choice.fails] using hx
          simp [Choice.loses, ho]
      next => exact Or.inl rfl
  | mysqlStmtExecute stmt =>
    simp only [serve]
    split
    next => exact Or.inl rfl
    next q _ =>
      have h := submit_state sv i x s q (l.params stmt)
      split
      next hs => rwa [hs] at h
      next hs => rwa [hs] at h
  | mysqlRealQuery conn q =>
    have h := submit_state sv i x s q []
    simp only [serve]
    split
    next hs => rwa [hs] at h
    next hs => rwa [hs] at h
  | _ => exact Or.inl rfl

theorem serve_ran {P : LogEntry κ → Prop} (hP : ∀ e, Acted sv i x s e → P e)
    (h : Ran sv P s₀ s) : Ran sv P s₀ (serve sv i x l s c).2.2 := by
  rcases serve_state sv i x l s c with hs | ⟨e, he, hs⟩
  · rwa [hs]
  · obtain ⟨es, hlog, hrep, hes⟩ := h
    rw [hs]
    refine ⟨e :: es, by simp [ServerState.record, hlog], hrep.cons he.answer, ?_⟩
    simpa using ⟨hP e he, hes⟩

theorem serve_mine_ne [DecidableEq κ] {j : κ} (hne : i ≠ j) :
    mine j (serve sv i x l s c).2.2 = mine j s := by
  rcases serve_state sv i x l s c with hs | ⟨e, he, hs⟩
  · rw [hs]
  · rw [hs]
    have hj : e.sender ≠ j := fun h => hne (he.sender.symm.trans h)
    simp [mine, ServerState.record, hj]

theorem ran_refl {P : LogEntry κ → Prop} : Ran sv P s s := ⟨[], rfl, .nil, by simp⟩

end PrizeSender
