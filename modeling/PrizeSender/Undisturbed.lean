import PrizeSender.Serializable

namespace PrizeSender

open Prog Sql

variable {κ ι : Type} [DecidableEq κ] {sv : Sql.Server} {cp : CodePage UInt16 UInt8}
variable {senders : κ → Sender} {db dbEnd : Database} {log : List (LogEntry κ)}
variable {g : κ → ι → Choice} {result : κ → Except Bytes Unit} {i : κ}

/-- A sender that has passed the table check finds a prize table with the
columns of the start. -/
theorem Ended.state_past (h : Ended sv cp g senders db log dbEnd result) (hf : ¬ Faults (g i))
    {e : LogEntry κ} {es es' : List (LogEntry κ)} (hown : ownLog i log = e :: (es' ++ es))
    (htable : TableLog (g i) i es' (.ok ())) :
    ∃ d tb, e.answer = sv.respond d e.stmt e.params ∧ d "account_prize" = some tb ∧
      tb.columns = (prizeTable db).columns := by
  obtain ⟨after, before, hlog, _, _, hbefore⟩ := List.filter_eq_cons_iff.mp hown
  have hrep := h.replays
  rw [hlog] at hrep
  obtain ⟨d, hd, ha, _⟩ := replays_around hrep
  obtain ⟨x, hx, hleft⟩ := htable.leaves_table sv hf
  have hmem : x ∈ before.filter fun e => e.sender = i := by
    rw [hbefore]
    exact List.mem_append_left _ hx
  obtain ⟨later, earlier, hsplit⟩ := List.mem_iff_append.mp (List.mem_of_mem_filter hmem)
  have hd' := hd
  rw [hsplit] at hd'
  obtain ⟨d₁, _, h₁, hlater⟩ := replays_around hd'
  obtain ⟨tb, htb⟩ := Option.isSome_iff_exists.mp (isSome_replays hlater (hleft d₁ h₁))
  refine ⟨d, tb, ha, htb, columns_ofSend hd ?_ htb⟩
  intro e' he'
  apply h.ofSend
  rw [hlog]
  simp [he']

/-- The INSERT of a sender whose calls are answered succeeds if and only if the
table takes the prize. -/
theorem Ended.inserts_iff (h : Ended sv cp g senders db log dbEnd result) (hf : ¬ Faults (g i))
    (hclock : ∀ y, (g i y).clock = (senders i).clock) {es es' es'' : List (LogEntry κ)}
    {r : Except Bytes Unit} (hown : ownLog i log = es'' ++ (es' ++ es))
    (htable : TableLog (g i) i es' (.ok ()))
    (hprize : PrizeLog (g i) i (cp.encode (senders i).prize.mUsername) (senders i).prize.mWorld
      (senders i).prize.mCharguid (senders i).prize.mItem (senders i).prize.mCount es'' r) :
    r = .ok () ↔ Takes sv cp db (senders i) := by
  have hvalues : ∀ y, insertValues (g i) (cp.encode (senders i).prize.mUsername)
      (senders i).prize.mWorld (senders i).prize.mCharguid (senders i).prize.mItem
      (senders i).prize.mCount y = (senders i).values cp := by
    intro y
    rw [insertValues, hclock]
    rfl
  cases hprize with
  | @stored a n y hok =>
    rw [List.singleton_append] at hown
    obtain ⟨d, tb, ha, htb, hcol⟩ := h.state_past hf hown htable
    obtain ⟨_, row, _, hrow, _⟩ := insert_answer ha hok
    rw [hvalues] at ha
    refine ⟨fun _ => (takes_iff htb hcol).mpr ⟨row, ?_⟩, fun _ => rfl⟩
    exact ha.symm.trans hrow
  | @unprepared db₀ errno what hdb₀ =>
    rw [List.singleton_append] at hown
    obtain ⟨d, tb, ha, htb, hcol⟩ := h.state_past hf hown htable
    refine ⟨fun hok => (by cases hok), fun htakes => ?_⟩
    obtain ⟨row, hrow⟩ := (takes_iff htb hcol).mp htakes
    have herrno : Answer.error errno = .error erWrongArguments :=
      ha.trans (respond_insert_unbound hrow)
    exact absurd (Answer.error.inj herrno) (refused_ne_wrongArguments hdb₀)
  | @refused errno y what =>
    rw [List.singleton_append] at hown
    obtain ⟨d, tb, ha, htb, hcol⟩ := h.state_past hf hown htable
    rw [hvalues] at ha
    refine ⟨fun hok => (by cases hok), fun htakes => ?_⟩
    obtain ⟨row, hrow⟩ := (takes_iff htb hcol).mp htakes
    have hne : Answer.error errno = .inserted "account_prize" row := ha.trans hrow
    cases hne
  | faulted hf' => exact absurd hf' hf

omit [DecidableEq κ] in
/-- Without faults each CREATE TABLE of a table check that succeeds has made the
table. -/
theorem TableLog.creates {es : List (LogEntry κ)} (h : TableLog (g i) i es (.ok ()))
    (hf : ¬ Faults (g i)) (hans : ∀ e ∈ es, ∃ d, e.answer = sv.respond d e.stmt e.params) :
    ∀ e ∈ es, e.stmt = createTableSql → e.creates = true := by
  intro e he hst
  cases h with
  | found =>
    rw [List.mem_singleton.mp he] at hst
    cases hst
  | @made b n hok =>
    rcases List.mem_cons.mp he with rfl | he
    · obtain ⟨d, ha⟩ := hans _ List.mem_cons_self
      have ha : b = sv.respond d createTableSql [] := ha
      rw [respond_create] at ha
      split at ha
      next =>
        rw [ha] at hok
        cases hok
      next =>
        rw [ha]
        rfl
    · rw [List.mem_singleton.mp he] at hst
      cases hst
  | faulted hf' => exact absurd hf' hf

/-- In a log, newest first, another sender has made the table between the probe
of sender `i` and its CREATE TABLE. -/
def Overtaken {κ : Type} (i : κ) (log : List (LogEntry κ)) : Prop :=
  ∃ later create between probe earlier, log = later ++ create :: (between ++ probe :: earlier) ∧
    (create.sender = i ∧ create.stmt = createTableSql) ∧
    (probe.sender = i ∧ probe.stmt = checkTableQuery) ∧
    ∃ e ∈ between, e.sender ≠ i ∧ e.creates = true

theorem filter_eq_append_pair {α : Type} {p : α → Bool} {l front back : List α} {a b : α}
    (h : l.filter p = front ++ a :: b :: back) :
    ∃ later between earlier, l = later ++ a :: (between ++ b :: earlier) ∧
      ∀ x ∈ between, ¬ p x := by
  obtain ⟨l₁, l₂, rfl, _, h₂⟩ := List.filter_eq_append_iff.mp h
  obtain ⟨l₃, l₄, rfl, _, _, h₄⟩ := List.filter_eq_cons_iff.mp h₂
  obtain ⟨between, earlier, rfl, hbetween, _, _⟩ := List.filter_eq_cons_iff.mp h₄
  exact ⟨l₁ ++ l₃, between, earlier, by simp, hbetween⟩

section

variable {own : ι → Choice} {es : List (LogEntry κ)} {r : Except Bytes Unit} {e : LogEntry κ}
variable {account : Bytes} {world charguid item count : CInt}

omit [DecidableEq κ] in
/-- Without faults a CREATE TABLE comes right after a probe that has found no
table. -/
theorem TableLog.probed (h : TableLog own i es r) (hf : ¬ Faults own) (he : e ∈ es)
    (hst : e.stmt = createTableSql) : ∃ probe, es = [e, probe] ∧ probe.misses = true := by
  have hfirst : ∀ {a : Answer}, (sent i checkTableQuery [] a).stmt ≠ createTableSql := by
    intro a h
    cases h
  cases h with
  | found =>
    rw [List.mem_singleton.mp he] at hst
    exact absurd hst hfirst
  | made =>
    rcases List.mem_cons.mp he with rfl | he
    · exact ⟨_, rfl, rfl⟩
    · rw [List.mem_singleton.mp he] at hst
      exact absurd hst hfirst
  | unmade =>
    rcases List.mem_cons.mp he with rfl | he
    · exact ⟨_, rfl, rfl⟩
    · rw [List.mem_singleton.mp he] at hst
      exact absurd hst hfirst
  | refused =>
    rw [List.mem_singleton.mp he] at hst
    exact absurd hst hfirst
  | faulted hf' => exact absurd hf' hf

omit [DecidableEq κ] in
theorem SendLog.probed (h : SendLog own i account world charguid item count es r)
    (hf : ¬ Faults own) (he : e ∈ es) (hst : e.stmt = createTableSql) :
    ∃ front probe back, es = front ++ e :: probe :: back ∧ probe.misses = true := by
  have hcheck : ∀ {es' : List (LogEntry κ)} {r'}, AccountLog own i account es' r' → e ∉ es' :=
    fun haccount he => by cases (haccount.stmt e he).symm.trans hst
  cases h with
  | unsent => cases he
  | account haccount => exact absurd he (hcheck haccount)
  | @table es es' what haccount htable =>
    rcases List.mem_append.mp he with he | he
    · obtain ⟨probe, rfl, hmiss⟩ := htable.probed hf he hst
      exact ⟨[], probe, es, rfl, hmiss⟩
    · exact absurd he (hcheck haccount)
  | @prize es es' es'' _ haccount htable hprize =>
    rcases List.mem_append.mp he with he | he
    · cases (hprize.stmt e he).symm.trans hst
    · rcases List.mem_append.mp he with he | he
      · obtain ⟨probe, rfl, hmiss⟩ := htable.probed hf he hst
        exact ⟨es'', probe, es, rfl, hmiss⟩
      · exact absurd he (hcheck haccount)

end

omit [DecidableEq κ] in
theorem isSome_of_creates {d : Database} {e : LogEntry κ} (h : Replays sv db log d) (he : e ∈ log)
    (hmade : e.creates = true) : (d "account_prize").isSome := by
  have hcount := creates_replays "account_prize" h
  have hpos : 0 < log.countP LogEntry.creates := List.countP_pos_iff.mpr ⟨e, he, hmade⟩
  change _ = _ + log.countP LogEntry.creates at hcount
  by_contra hnone
  rw [Bool.eq_false_of_not_eq_true hnone] at hcount
  simp at hcount
  omega

omit [DecidableEq κ] in
theorem exists_creates {d : Database} (h : Replays sv db log d) (hnone : db "account_prize" = none)
    (hsome : (d "account_prize").isSome) : ∃ e ∈ log, e.creates = true := by
  have hcount := creates_replays "account_prize" h
  rw [hnone, hsome] at hcount
  change 1 = 0 + log.countP LogEntry.creates at hcount
  exact List.countP_pos_iff.mp (by omega)

/-- The CREATE TABLE of a sender whose calls are answered fails if and only if
another sender has been faster. -/
theorem Ended.overtaken_iff (h : Ended sv cp g senders db log dbEnd result)
    (hf : ¬ Faults (g i)) :
    Overtaken i log ↔ ∃ e ∈ ownLog i log, e.stmt = createTableSql ∧ e.creates ≠ true := by
  constructor
  · rintro ⟨later, create, between, probe, earlier, hlog, ⟨hsender, hst⟩, _, e, he, _, hmade⟩
    have hmem : create ∈ log := by simp [hlog]
    refine ⟨create, List.mem_filter.mpr ⟨hmem, by simp [hsender]⟩, hst, ?_⟩
    intro hcreates
    obtain ⟨d, hd, ha, _⟩ := replays_around (hlog ▸ h.replays)
    have hnone := ((creates_iff (h.ofSend create hmem) ha).mp hcreates).2
    have hsome := isSome_of_creates hd (List.mem_append_left _ he) hmade
    simp [hnone] at hsome
  · rintro ⟨create, hown, hst, hcreates⟩
    obtain ⟨front, probe, back, hback, hmiss⟩ := (h.sends i).probed hf hown hst
    obtain ⟨later, between, earlier, hlog, hothers⟩ := filter_eq_append_pair hback
    obtain ⟨hprobe, hmissed⟩ : probe.stmt = checkTableQuery ∧ probe.answer = .error erNoSuchTable :=
      of_decide_eq_true hmiss
    have hfirst : probe ∈ ownLog i log := by simp [hback]
    have hmem : create ∈ log := List.mem_of_mem_filter hown
    -- at the probe there is no table, at the CREATE TABLE there is one
    obtain ⟨d, hd, ha, _⟩ := replays_around (hlog ▸ h.replays)
    obtain ⟨d₀, _, ha₀, hbetween⟩ := replays_around hd
    rw [hmissed] at hbetween
    have habsent : d₀ "account_prize" = none := ((misses_iff ha₀).mp hmiss).2
    have hpresent : (d "account_prize").isSome := by
      by_contra hnone
      apply hcreates
      exact (creates_iff (h.ofSend create hmem) ha).mpr ⟨hst, by simpa using hnone⟩
    obtain ⟨e, he, hmade⟩ := exists_creates hbetween habsent hpresent
    refine ⟨later, create, between, probe, earlier, hlog, ⟨?_, hst⟩, ⟨?_, hprobe⟩, e, he, ?_, hmade⟩
    · simpa using (List.mem_filter.mp hown).2
    · simpa using (List.mem_filter.mp hfirst).2
    · simpa using hothers e he

theorem Ended.not_overtaken_iff (h : Ended sv cp g senders db log dbEnd result)
    (hf : ¬ Faults (g i)) : ¬ Overtaken i log ↔
      ∀ e ∈ ownLog i log, e.stmt = createTableSql → e.creates = true := by
  rw [h.overtaken_iff hf]
  simp

/-- What becomes of a sender whose calls are answered, whatever the others do. -/
theorem Ended.ok_iff (h : Ended sv cp g senders db log dbEnd result) (hf : ¬ Faults (g i))
    (hclock : ∀ y, (g i y).clock = (senders i).clock)
    (hacc : AccountExists sv db (cp.encode (senders i).prize.mUsername)) :
    result i = .ok () ↔ Takes sv cp db (senders i) ∧ ¬ Overtaken i log := by
  rw [h.not_overtaken_iff hf]
  have hans : ∀ e ∈ ownLog i log, ∃ d, d "account" = db "account" ∧
      e.answer = sv.respond d e.stmt e.params :=
    fun e he => answered_account h.replays h.ofSend (List.mem_of_mem_filter he)
  have hsend := h.sends i
  generalize hr : result i = r at hsend
  generalize hown : ownLog i log = own at hsend hans
  cases hsend with
  | unsent hf' => exact absurd hf' hf
  | account haccount => cases haccount.ok_of_exists hf hacc hans
  | @table es es' what haccount htable =>
    cases htable with
    | unmade =>
      refine ⟨nofun, fun ⟨_, hall⟩ => ?_⟩
      cases hall _ List.mem_cons_self rfl
    | @refused errno _ hn =>
      obtain ⟨d, _, ha⟩ := hans _ List.mem_cons_self
      have ha : Answer.error errno = sv.respond d checkTableQuery [] := ha
      rw [respond_probe] at ha
      split at ha
      next => cases ha
      next => exact absurd (Answer.error.inj ha) hn
    | faulted hf' => exact absurd hf' hf
  | @prize es es' es'' _ haccount htable hprize =>
    have hmade := htable.creates hf fun e he => by
      obtain ⟨d, _, ha⟩ := hans e (by simp [he])
      exact ⟨d, ha⟩
    have hall : ∀ e ∈ es'' ++ (es' ++ es), e.stmt = createTableSql → e.creates = true := by
      intro e he hst
      rcases List.mem_append.mp he with he | he
      · cases (hprize.stmt e he).symm.trans hst
      · rcases List.mem_append.mp he with he | he
        · exact hmade e he hst
        · cases (haccount.stmt e he).symm.trans hst
    rw [and_iff_left hall]
    exact h.inserts_iff hf hclock hown htable hprize

/-- The calls of sender `i` are all answered, those of the others end as they
may. -/
def calm (senders : κ → Sender) (i : κ) : κ → Choice → Choice :=
  fun j x => if j = i then (senders i).answered x.text else (senders j).clocked x

theorem calm_not_faults : ¬ Faults (calm senders i i) := by
  rintro ⟨x, hx⟩
  simp [calm, Sender.answered, Choice.fails] at hx

theorem calm_clock (j : κ) (x : Choice) : (calm senders i j x).clock = (senders j).clock := by
  unfold calm
  split
  next hj => rw [hj]; rfl
  next => rfl

/-- A sender whose calls are answered cannot be disturbed, whatever befalls the
others: it succeeds if and only if the table takes its prize and no other has
made the table between its probe and its CREATE TABLE. -/
theorem calm_ok_iff {n : Nat} (sv : Sql.Server) (cp : CodePage UInt16 UInt8)
    (senders : Fin n → Sender) (db : Database) (i : Fin n) (schedule : List (Fin n × Choice))
    (hacc : AccountExists sv db (cp.encode (senders i).prize.mUsername))
    (hturns : 32 ≤ (schedule.map Prod.fst).count i) :
    let pool := (startPool cp senders db).interleave
      (fun j x => serve sv j (calm senders i j x)) schedule
    (pool.threads i).prog.result? = some (.ok ()) ↔
      Takes sv cp db (senders i) ∧ ¬ Overtaken i pool.shared.log := by
  intro pool
  have hdone : (pool.threads i).prog.result?.isSome :=
    interleave_within processSendPrize_within hturns
  obtain ⟨r, hr⟩ := Option.isSome_iff_exists.mp hdone
  have hready : ∀ j, (pool.threads j).prog.result?.isSome ∨
      (calm senders i j { outcome := .refused 0 }).outcome = .refused 0 := by
    intro j
    by_cases hj : j = i
    · exact Or.inl (hj ▸ hdone)
    · exact Or.inr (by simp [calm, hj, Sender.clocked])
  obtain ⟨result, hend, _, hkept⟩ := pool_asEnded sv cp senders db calm_clock _ hready
  rw [← hend.ok_iff calm_not_faults (calm_clock i) hacc, hkept i r hr, hr, Option.some.injEq]

/-- Sender `i` is answered while all the calls of `j` are lost. -/
def firstThenLost (i j : Fin 2) : List (Fin 2 × Choice) :=
  (turns 10 j ++ turns 32 i ++ turns 22 j).map fun turn => (turn.1, { outcome := .lost 2013 })

theorem calm_ok_iff_admin :
    let pool := (startPool asciiPage adminSenders adminDb).interleave
      (fun j x => serve .exact j (calm adminSenders 0 j x)) (firstThenLost 0 1)
    (pool.threads 0).prog.result? = some (.ok ()) ∧
      Takes .exact asciiPage adminDb (adminSenders 0) ∧ ¬ Overtaken 0 pool.shared.log := by
  have hok : (((startPool asciiPage adminSenders adminDb).interleave
      (fun j x => serve .exact j (calm adminSenders 0 j x)) (firstThenLost 0 1)).threads
      0).prog.result? = some (.ok ()) := by
    decide +kernel
  have hiff := calm_ok_iff .exact asciiPage adminSenders adminDb 0 (firstThenLost 0 1) adminExists
    (by decide)
  exact ⟨hok, hiff.mp hok⟩

end PrizeSender
