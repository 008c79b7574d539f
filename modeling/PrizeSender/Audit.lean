import PrizeSender.Posting

namespace PrizeSender

open Prog Sql CTlPrizeSenderDlg

section

variable {κ : Type} [DecidableEq κ] {sv : Sql.Server} {cp : CodePage UInt16 UInt8}
variable {ddxInt : WString → Option CInt} {i : κ} {own own' own'' : Operator}
variable {s s' s'' : ServerState κ} {m : List (LogEntry κ)} {acts acts' : List Act}
variable {sends sends' : List (Dispatch κ)}

theorem accounted_refl (hs : mine i s = m) : Accounted cp i own m [] [] own s where
  prizes := rfl
  told := ⟨[], rfl, rfl⟩
  log := hs
  logged := by simp

theorem Accounted.trans (h : Accounted cp i own m acts sends own' s')
    (h' : Accounted cp i own' (mine i s') acts' sends' own'' s'') :
    Accounted cp i own m (acts ++ acts') (sends ++ sends') own'' s'' := by
  obtain ⟨hprizes, ⟨shown, hshown, htold⟩, hlog, hlogged⟩ := h
  obtain ⟨hprizes', ⟨shown', hshown', htold'⟩, hlog', hlogged'⟩ := h'
  refine ⟨?_, ⟨shown' ++ shown, ?_, ?_⟩, ?_, ?_⟩
  · rw [List.filterMap_append, hprizes, hprizes', List.map_append]
  · rw [hshown', hshown, List.append_assoc]
  · rw [List.filterMap_append, List.reverse_append, htold, htold', List.map_append]
  · rw [hlog', hlog]
    simp
  · intro x hx
    rcases List.mem_append.mp hx with hx | hx
    · exact hlogged x hx
    · exact hlogged' x hx

/-- Over any number of sessions, whatever the others do meanwhile, an operator
does what is meant. -/
theorem sittings_accounted (sessions : List (List Action)) (own : Operator) (s : ServerState κ) :
    let spec := own.appConfig.load.lifetime ddxInt sessions
    ((sittings ddxInt cp sessions).expand (carryOut cp)).wp (office sv i) (.keeping (mine i))
      (fun _ own' s' => own'.appConfig.load = spec.2 ∧
        ∃ sends, Accounted cp i own (mine i s) spec.1 sends own' s') own s := by
  induction sessions generalizing own s with
  | nil => exact fun s' hs => ⟨rfl, [], accounted_refl hs⟩
  | cons actions sessions ih =>
    intro spec
    rw [sittings, expand_bind]
    apply wp_bind
    refine wp_mono (session_accounted actions own s) ?_
    rintro _ own' s' ⟨hfiles, sends, hfirst⟩
    have hline : ∀ t ∈ strings own.appConfig.load.confirmed.config, OneLine t := oneLine_load
    have hload : own'.appConfig.load =
        (own.appConfig.load.confirmed.play ddxInt actions).2.config.reread := by
      rw [Operator.appConfig, hfiles, Files.save_self]
      exact load_save_eq (oneLine_play actions hline)
    refine wp_mono (ih own' s') ?_
    rintro _ own'' s'' ⟨hend, sends', hlater⟩
    rw [hload] at hend hlater
    exact ⟨hend, _, hfirst.trans hlater⟩

end

/-! The office. -/

/-- The profile files of an operator, and what is done in each session. -/
structure Workplace where
  files : Files
  sessions : List (List Action)

abbrev OfficePool (κ : Type) :=
  Pool OfficeCall OfficeCall.Reply κ Operator (ServerState κ) Unit

variable {κ : Type} [DecidableEq κ] {sv : Sql.Server} {cp : CodePage UInt16 UInt8}
variable {ddxInt : WString → Option CInt} {workplaces : κ → Workplace} {db : Database} {i : κ}
variable {schedule : List (κ × OfficeChoice)}

def openOffice (ddxInt : WString → Option CInt) (cp : CodePage UInt16 UInt8)
    (workplaces : κ → Workplace) (db : Database) : OfficePool κ where
  threads i :=
    { prog := (sittings ddxInt cp (workplaces i).sessions).expand (carryOut cp)
      own := ⟨{}, (workplaces i).files, []⟩ }
  shared := ⟨db, []⟩

/-- All operators work at the same time, their calls, those of
`processSendPrize` included, being made in the order of the schedule. -/
def officeHours (sv : Sql.Server) (ddxInt : WString → Option CInt) (cp : CodePage UInt16 UInt8)
    (workplaces : κ → Workplace) (db : Database) (schedule : List (κ × OfficeChoice)) :
    OfficePool κ :=
  (openOffice ddxInt cp workplaces db).interleave (office sv) schedule

theorem officeHours_replays :
    let pool := officeHours sv ddxInt cp workplaces db schedule
    Replays sv db pool.shared.log pool.shared.db := by
  intro pool
  have hstep : ∀ (i : κ) x own s c, Ran sv (fun _ => True) ⟨db, []⟩ s →
      Ran sv (fun _ => True) ⟨db, []⟩ (office sv i x own s c).2.2 := by
    intro i x own s c h
    cases c with
    | ui c => exact h
    | db c => exact serve_ran (fun _ _ => trivial) h
  have hran : Ran sv (fun _ => True) ⟨db, []⟩ pool.shared :=
    interleave_keeps hstep schedule ran_refl
  obtain ⟨es, hlog, hrep, _⟩ := hran
  rw [hlog, List.append_nil]
  exact hrep

/-- An operator who has ended has done what is meant. -/
theorem officeHours_accounted :
    let pool := officeHours sv ddxInt cp workplaces db schedule
    let spec := ((workplaces i).files appConfigPath).load.lifetime ddxInt (workplaces i).sessions
    (pool.threads i).prog.result? = some () →
    (pool.threads i).own.appConfig.load = spec.2 ∧ ∃ sends, Accounted cp i
      ⟨{}, (workplaces i).files, []⟩ [] spec.1 sends (pool.threads i).own pool.shared := by
  intro pool spec hended
  have hquiet : ∀ (i j : κ) x own s c, i ≠ j →
      (Interference.keeping (mine i)).step s (office sv j x own s c).2.2 := by
    intro i j x own s c hij
    cases c with
    | ui c => rfl
    | db c => exact serve_mine_ne hij.symm
  exact interleave_ended (p := openOffice ddxInt cp workplaces db) hquiet schedule
    (fun i => sittings_accounted (workplaces i).sessions _ _) hended

theorem Accounted.mem {own own' : Operator} {s : ServerState κ} {acts : List Act}
    {sends : List (Dispatch κ)} {e : LogEntry κ} (h : Accounted cp i own [] acts sends own' s) :
    e ∈ mine i s ↔ ∃ x ∈ sends, e ∈ x.entries := by
  rw [h.log, List.append_nil, List.mem_flatMap]
  simp

/-- At any moment the log holds only statements of sends. -/
theorem officeHours_ofSend {n : Nat} {workplaces : Fin n → Workplace}
    {schedule : List (Fin n × OfficeChoice)} :
    ∀ e ∈ (officeHours sv ddxInt cp workplaces db schedule).shared.log,
      Statement.OfSend e.stmt := by
  let refused : OfficeChoice := ⟨⟨[], by decide⟩, { outcome := .refused 0 }⟩
  have hidle : ∀ i ∈ List.finRange n, Idle (office sv) refused i := by
    intro i _ own s c
    cases c with
    | ui c => rfl
    | db c => exact serve_refused rfl own.client s c
  obtain ⟨rest, hshared, hended⟩ := exists_completion hidle
    (officeHours sv ddxInt cp workplaces db schedule)
  have hpool : (officeHours sv ddxInt cp workplaces db schedule).interleave (office sv) rest =
      officeHours sv ddxInt cp workplaces db (schedule ++ rest) :=
    (interleave_append _ _ _ _).symm
  intro e he
  rw [hpool] at hshared hended
  rw [← hshared] at he
  obtain ⟨_, hend⟩ := hended e.sender (List.mem_finRange _)
  obtain ⟨_, sends, h⟩ := officeHours_accounted hend
  obtain ⟨x, hx, hex⟩ := h.mem.mp (List.mem_filter.mpr ⟨he, by simp⟩)
  exact (h.logged x hx).log.stmt e hex

/-- The accounts of one operator: each prize meant has been sent once, in order,
and the operator told of it; a success told has left one row, by an INSERT whose
reply has come, a failure told has left one only by an INSERT whose reply was
lost, and these are all the rows of the operator. -/
structure Audited (sv : Sql.Server) (cp : CodePage UInt16 UInt8) (i : κ) (prizes : List CAppConfigPrize)
    (shown : List (WString × MbIcon)) (s : ServerState κ) (postings : List (Posting κ)) : Prop where
  sent : prizes = postings.map Posting.prize
  told : (shown.filterMap verdict?).reverse = postings.map Posting.success
  log : mine i s = postings.reverse.flatMap Posting.entries
  left : ∀ x ∈ postings, x.entries.filterMap LogEntry.prizeRow = x.row.toList
  rows : ((addedRows s.log).filter fun a => a.1 = i).map Prod.snd = postings.filterMap Posting.row
  stored : ∀ x ∈ postings, ∀ row ∈ x.row, ∃ tb, s.db "account_prize" = some tb ∧
    ∀ p ∈ prizeGiven (cp.encode x.prize.mUsername) x.prize, sv.Stored tb.columns row p.1 p.2
  honest : ∀ x ∈ postings, x.success = true → x.row.isSome
  lost : ∀ x ∈ postings, x.entries.countP LogEntry.lostInsert = if x.lost then 1 else 0

theorem rowsOf_sender (i : κ) (log : List (LogEntry κ)) :
    ((addedRows log).filter fun a => a.1 = i).map Prod.snd =
      ((log.filter fun e => e.sender = i).filterMap LogEntry.prizeRow).reverse := by
  induction log with
  | nil => rfl
  | cons e log ih =>
    rw [addedRows_cons, List.filter_append, List.map_append, ih, List.filter_cons]
    have hrow : e.answer.row? "account_prize" = e.prizeRow := rfl
    rw [hrow]
    by_cases hi : e.sender = i
    · cases h : e.prizeRow <;> simp [hi, h]
    · cases h : e.prizeRow <;> simp [hi]

/-- However many operators work at the same time, whatever their calls, those of
their sends included, are interleaved with and whatever befalls these: at every
moment the prize table holds the earlier rows and those added by the operators,
and the accounts of each operator who has ended are right. -/
theorem officeHours_audited {n : Nat} (sv : Sql.Server) (cp : CodePage UInt16 UInt8)
    (ddxInt : WString → Option CInt) (workplaces : Fin n → Workplace) (db : Database)
    (schedule : List (Fin n × OfficeChoice)) :
    let pool := officeHours sv ddxInt cp workplaces db schedule
    rowsOf pool.shared.db "account_prize" =
      rowsOf db "account_prize" ++ (addedRows pool.shared.log).map Prod.snd ∧
    ∀ i, (pool.threads i).prog.result? = some () →
      let spec := ((workplaces i).files appConfigPath).load.lifetime ddxInt (workplaces i).sessions
      (pool.threads i).own.appConfig.load = spec.2 ∧ ∃ postings, Audited sv cp i
        (spec.1.filterMap Act.prize?) (pool.threads i).own.shown pool.shared postings := by
  intro pool
  have hrep : Replays sv db pool.shared.log pool.shared.db := officeHours_replays
  have hst : ∀ e ∈ pool.shared.log, Statement.OfSend e.stmt := officeHours_ofSend
  refine ⟨rowsOf_addedRows hrep, ?_⟩
  intro i hend spec
  obtain ⟨hload, sends, h⟩ := officeHours_accounted hend
  have hentered : ∀ x ∈ sends, x.Entered sv cp pool.shared.db := by
    intro x hx
    have hprize : x.prize ∈ spec.1.filterMap Act.prize? := by
      rw [h.prizes]
      exact List.mem_map_of_mem hx
    obtain ⟨controls, ha⟩ := lifetime_fromForms _ _ x.prize hprize
    apply (h.logged x hx).entered hrep hst
    · intro e he
      exact List.mem_of_mem_filter (h.mem.mpr ⟨x, hx, he⟩)
    · exact cString_encode ha
  obtain ⟨shown, hshown, htold⟩ := h.told
  rw [List.append_nil] at hshown
  have hlog := h.log
  rw [List.append_nil] at hlog
  refine ⟨hload, sends.map Dispatch.posting, ?_, ?_, ?_, ?_, ?_, ?_, ?_, ?_⟩
  · rw [h.prizes, List.map_map]
    rfl
  · rw [hshown, htold, List.map_map]
    rfl
  · rw [hlog, ← List.map_reverse, List.flatMap_map]
    rfl
  · exact List.forall_mem_map.mpr fun x hx => (hentered x hx).rows
  · rw [rowsOf_sender]
    change ((mine i pool.shared).filterMap LogEntry.prizeRow).reverse = _
    rw [hlog, rows_sends hentered]
  · exact List.forall_mem_map.mpr fun x hx => (hentered x hx).stored
  · exact List.forall_mem_map.mpr fun x hx => (hentered x hx).honest
  · exact List.forall_mem_map.mpr fun x hx => (hentered x hx).lost

/-- Two operators who open the program, send one prize and close it. -/
def adminOffice : Fin 2 → Workplace := fun _ => ⟨fun _ => .empty, [[.send prizeForm]]⟩

def sideBySide (k : Nat) : List (Fin 2 × OfficeChoice) :=
  (List.replicate k (List.finRange 2)).flatten.map fun i => (i, ⟨DeskChoice.answered.btnText, {}⟩)

/-- The second of them loses the race for the table. -/
theorem officeHours_audited_admin :
    let pool := officeHours .exact decimalInt asciiPage adminOffice adminDb (sideBySide 60)
    ∃ postings, Audited .exact asciiPage 1
      ((Profile.empty.load.lifetime decimalInt [[.send prizeForm]]).1.filterMap Act.prize?)
      (pool.threads 1).own.shown pool.shared postings :=
  ((officeHours_audited .exact asciiPage decimalInt adminOffice adminDb (sideBySide 60)).2 1
    (by decide +kernel)).2

end PrizeSender
