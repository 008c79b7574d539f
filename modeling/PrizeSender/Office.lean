import PrizeSender.Expand
import PrizeSender.Told
import PrizeSender.OwnPrize

/-! Several operators who work at the same time, each on a machine of its own,
with one server between them. -/

namespace PrizeSender

open Prog Sql CTlPrizeSenderDlg

/-- The machine of one operator. -/
structure Operator where
  client : Client
  files : Files
  shown : List (WString × MbIcon)

/-- The calls that leave the program, those of `processSendPrize` one by one. -/
inductive OfficeCall where
  | ui (c : UiCall)
  | db (c : DbCall)

abbrev OfficeCall.Reply : OfficeCall → Type
  | .ui c => c.Reply
  | .db c => c.Reply

/-- What is left open about one call. -/
structure OfficeChoice where
  btnText : LineText
  call : Choice

def Operator.reply (own : Operator) (btnText : LineText) : (c : UiCall) → c.Reply
  | .getPrivateProfileString appName keyName default size fileName =>
    own.files.getString appName keyName default size fileName
  | .getPrivateProfileInt appName keyName default fileName =>
    own.files.getInt appName keyName default fileName
  | .writePrivateProfileString .. => ()
  | .setDlgItemText .. => ()
  | .afxMessageBox .. => ()
  | .messageBox .. => ()
  | .getWindowText => btnText
  | .setWindowText _ => ()
  | .enableWindow _ => ()
  -- it is carried out call by call
  | .processSendPrize .. => .error []

/-- The config file of an operator. -/
def Operator.appConfig (own : Operator) : Profile := own.files appConfigPath

def Operator.after (own : Operator) : UiCall → Operator
  | .writePrivateProfileString appName keyName value fileName =>
    { own with files := own.files.write appName keyName value fileName }
  | .afxMessageBox prompt icon => { own with shown := (prompt, icon) :: own.shown }
  | .messageBox text _ icon => { own with shown := (text, icon) :: own.shown }
  | _ => own

/-- The windows and the files of operator `i`, and the server. -/
def office {κ : Type} (sv : Sql.Server) (i : κ) :
    Env OfficeCall OfficeCall.Reply OfficeChoice Operator (ServerState κ) :=
  fun x own s c =>
  match c with
  | .ui c => (own.reply x.btnText c, own.after c, s)
  | .db c =>
    let answer := serve sv i x.call own.client s c
    (answer.1, { own with client := answer.2.1 }, answer.2.2)

/-- A call of the dialogs is one of the machine, but for `processSendPrize`. -/
def carryOut (cp : CodePage UInt16 UInt8) :
    (c : UiCall) → Prog OfficeCall OfficeCall.Reply c.Reply
  | .processSendPrize db username world charguid item count =>
    (processSendPrize cp db username world charguid item count).run.expand
      fun c => perform (OfficeCall.db c)
  | c => perform (OfficeCall.ui c)

/-- One session after the other. -/
def sittings (ddxInt : WString → Option CInt) (cp : CodePage UInt16 UInt8) :
    List (List Action) → Ui Unit
  | [] => Pure.pure ()
  | actions :: sessions => do
    session ddxInt cp actions
    sittings ddxInt cp sessions

/-- A prize that has been sent, with the result and the statements sent for
it, newest first. -/
structure Dispatch (κ : Type) where
  prize : CAppConfigPrize
  result : Except Bytes Unit
  entries : List (LogEntry κ)

section

variable {κ : Type} {sv : Sql.Server} {cp : CodePage UInt16 UInt8}
variable {i : κ} {own own' own'' start : Operator} {s s' s'' : ServerState κ}
variable {m : List (LogEntry κ)} {acts acts' : List Act} {es : List UiEvent}

def Dispatch.told (x : Dispatch κ) : Bool := x.result = .ok ()

structure Dispatch.Logged (cp : CodePage UInt16 UInt8) (i : κ) (x : Dispatch κ) : Prop where
  log : SendLog OfficeChoice.call i (cp.encode x.prize.mUsername) x.prize.mWorld
    x.prize.mCharguid x.prize.mItem x.prize.mCount x.entries x.result
  own : ∀ e ∈ x.entries, e.OwnPrize OfficeChoice.call (cp.encode x.prize.mUsername) x.prize.mWorld
    x.prize.mCharguid x.prize.mItem x.prize.mCount

variable [DecidableEq κ]

/-- What the events of a program have made of the machine and of the log. -/
structure Followed (cp : CodePage UInt16 UInt8) (i : κ) (start : Operator) (m : List (LogEntry κ))
    (es : List UiEvent) (own : Operator) (s : ServerState κ) : Prop where
  files : own.files = (es.filterMap observe).foldl Files.after start.files
  shown : own.shown = (es.filterMap fun e => e.1.message?).reverse ++ start.shown
  sends : ∃ sends : List (Dispatch κ), es.filterMap sent? = sends.map (fun x => (x.prize, x.result)) ∧
    mine i s = sends.reverse.flatMap Dispatch.entries ++ m ∧ ∀ x ∈ sends, x.Logged cp i

theorem followed_refl : Followed cp i own (mine i s) [] own s where
  files := rfl
  shown := rfl
  sends := ⟨[], rfl, rfl, by simp⟩

theorem Followed.stable (h : Followed cp i start m es own s) (hs : mine i s' = mine i s) :
    Followed cp i start m es own s' := by
  obtain ⟨hfiles, hshown, sends, hsent, hlog, hlogged⟩ := h
  exact ⟨hfiles, hshown, sends, hsent, hs.trans hlog, hlogged⟩

/-- A call of the machine follows its event. -/
theorem Followed.ui (h : Followed cp i start m es own s) {c : UiCall} {r : c.Reply}
    (hc : sent? ⟨c, r⟩ = none) : Followed cp i start m (es ++ [⟨c, r⟩]) (own.after c) s := by
  obtain ⟨hfiles, hshown, sends, hsent, hlog, hlogged⟩ := h
  have hsent' : List.filterMap sent? (es ++ [⟨c, r⟩]) =
      sends.map (fun x => (x.prize, x.result)) := by
    rw [List.filterMap_append, List.filterMap_cons, hc, hsent]
    simp
  refine ⟨?_, ?_, sends, hsent', hlog, hlogged⟩
  · rw [List.filterMap_append, List.foldl_append, ← hfiles]
    cases c <;> rfl
  · rw [List.filterMap_append, List.reverse_append, List.append_assoc, ← hshown]
    cases c <;> rfl

omit [DecidableEq κ] in
/-- A program of the database code runs on the machine as it does on the client
alone. -/
theorem wp_onServer {α : Type} {rely : Interference (ServerState κ)} {p : Prog DbCall DbCall.Reply α}
    {Q : α → Client → ServerState κ → Prop}
    (h : p.wp (fun y => serve sv i (OfficeChoice.call y)) rely Q own.client s) :
    (p.expand fun c => perform (OfficeCall.db c)).wp (office sv i) rely
      (fun a own' s' => ∃ client, own' = { own with client } ∧ Q a client s') own s := by
  induction p generalizing own s with
  | pure a => exact fun s' hs => ⟨own.client, rfl, h s' hs⟩
  | call c k ih =>
    intro s' hs x
    apply wp_mono (ih _ (h s' hs x))
    rintro a own' s' ⟨client, rfl, hq⟩
    exact ⟨client, rfl, hq⟩

/-- A send follows its event, with what it has added to the log. -/
theorem Followed.send (h : Followed cp i start m es own s) (db : CAppConfigDb)
    (prize : CAppConfigPrize) :
    (carryOut cp (.processSendPrize db prize.mUsername prize.mWorld prize.mCharguid prize.mItem
        prize.mCount)).wp (office sv i) (.keeping (mine i))
      (fun r own' s' => Followed cp i start m (es ++ [⟨.processSendPrize db prize.mUsername
        prize.mWorld prize.mCharguid prize.mItem prize.mCount, r⟩]) own' s') own s := by
  have hspec : Spec sv OfficeChoice.call i (processSendPrize cp db prize.mUsername prize.mWorld
    prize.mCharguid prize.mItem prize.mCount) _ own.client (mine i s) := processSendPrize_spec
  have hprize : Spec sv OfficeChoice.call i (processSendPrize cp db prize.mUsername prize.mWorld
    prize.mCharguid prize.mItem prize.mCount) _ own.client (mine i s) := processSendPrize_own
  apply wp_mono (wp_onServer (wp_and (hspec s rfl) (hprize s rfl)))
  rintro r own' s' ⟨client, rfl, ⟨added, hadded, hlog⟩, added', hadded', hown⟩
  obtain rfl : added' = added := List.append_cancel_right (hadded'.symm.trans hadded)
  obtain ⟨hfiles, hshown, sends, hsent, hmine, hlogged⟩ := h
  refine ⟨?_, ?_, sends ++ [⟨prize, r, added'⟩], ?_, ?_, ?_⟩
  · rw [List.filterMap_append, List.foldl_append, ← hfiles]
    rfl
  · rw [List.filterMap_append, List.reverse_append, List.append_assoc, ← hshown]
    rfl
  · rw [List.filterMap_append, hsent, List.map_append]
    rfl
  · rw [hadded, hmine]
    simp
  · intro x hx
    rcases List.mem_append.mp hx with hx | hx
    · exact hlogged x hx
    · rw [List.mem_singleton.mp hx]
      exact ⟨hlog, hown⟩

theorem carryOut_followed (h : Followed cp i start m es own s) (c : UiCall) :
    (carryOut cp c).wp (office sv i) (.keeping (mine i))
      (fun r own' s' => Followed cp i start m (es ++ [⟨c, r⟩]) own' s') own s := by
  cases c with
  | processSendPrize db username world charguid item count =>
    exact h.send db ⟨username, world, charguid, item, count⟩
  | _ => exact fun s' hs x s'' hs'' => ((h.stable hs).ui rfl).stable hs''

/-- A program of the dialogs that runs on the machine follows one of its
traces. -/
theorem expand_followed {α : Type} (p : Ui α) (own : Operator) (s : ServerState κ) :
    (p.expand (carryOut cp)).wp (office sv i) (.keeping (mine i))
      (fun a own' s' => ∃ o, (p.trace o).2 = a ∧
        Followed cp i own (mine i s) (p.trace o).1 own' s') own s :=
  wp_expand (K := Followed cp i own (mine i s)) (own.reply ⟨[], by decide⟩)
    (fun h hs => h.stable hs) (fun c h => carryOut_followed h c) p followed_refl

def UiCall.Loads : UiCall → Prop
  | .getPrivateProfileString .. => True
  | .getPrivateProfileInt .. => True
  | _ => False

omit [DecidableEq κ] in
/-- A program that only loads finds what the files hold and leaves everything as
it is. -/
theorem wp_loads {α : Type} {rely : Interference (ServerState κ)} {p : Ui α}
    (hp : p.Calls UiCall.Loads) (btnText : LineText) :
    (p.expand (carryOut cp)).wp (office sv i) rely (fun a own' s' =>
      a = (p.trace fun _ => own.reply btnText).2 ∧ own' = own ∧ rely.step s s') own s := by
  induction p with
  | pure a => exact fun s' hs => ⟨rfl, rfl, hs⟩
  | call c k ih =>
    obtain ⟨hc, hk⟩ := hp
    cases c with
    | getPrivateProfileString appName keyName default size fileName =>
      exact fun s' hs _ => wp_stable (ih _ (hk _)) hs
    | getPrivateProfileInt appName keyName default fileName =>
      exact fun s' hs _ => wp_stable (ih _ (hk _)) hs
    | _ => exact hc.elim

omit [DecidableEq κ] in
theorem wp_loadFromFile {rely : Interference (ServerState κ)} (filePath : String) :
    ((CAppConfig.loadFromFile filePath).expand (carryOut cp)).wp (office sv i) rely
      (fun config own' s' => config = (own.files filePath).load ∧ own' = own ∧ rely.step s s')
      own s := by
  have hcalls : (CAppConfig.loadFromFile filePath).Calls UiCall.Loads := by
    apply makes_calls (loadFromFile_makes filePath)
    simp [loadCalls, UiCall.Loads]
  refine wp_mono (wp_loads hcalls (firstLine [])) ?_
  rintro config own' s' ⟨hconfig, hrest⟩
  exact ⟨hconfig.trans (loadFromFile_reads (fun _ _ _ _ _ => rfl) fun _ _ _ _ => rfl), hrest⟩

/-- The prizes that a program is meant to send are those sent, the operator has
been told of each, and their statements are in the log. -/
structure Accounted (cp : CodePage UInt16 UInt8) (i : κ) (own : Operator) (m : List (LogEntry κ))
    (acts : List Act) (sends : List (Dispatch κ)) (own' : Operator) (s' : ServerState κ) : Prop where
  prizes : acts.filterMap Act.prize? = sends.map Dispatch.prize
  told : ∃ shown, own'.shown = shown ++ own.shown ∧
    (shown.filterMap verdict?).reverse = sends.map Dispatch.told
  log : mine i s' = sends.reverse.flatMap Dispatch.entries ++ m
  logged : ∀ x ∈ sends, x.Logged cp i

theorem Followed.accounted {α : Type} {p : Ui α} {o : Nat → (c : UiCall) → c.Reply}
    (h : Followed cp i own m (p.trace o).1 own' s') (hp : Tells p)
    (hacts : (p.trace o).1.filterMap observe = acts) :
    ∃ sends, Accounted cp i own m acts sends own' s' := by
  obtain ⟨_, hshown, sends, hsent, hlog, hlogged⟩ := h
  refine ⟨sends, ?_, ⟨_, hshown, ?_⟩, hlog, hlogged⟩
  · have hprizes := congrArg (List.map Prod.fst) hsent
    rw [List.map_filterMap, List.map_map] at hprizes
    rw [← hacts, List.filterMap_filterMap]
    simpa only [sent_prize, Function.comp_def] using hprizes
  · have htold := hp o
    rw [hsent, List.map_map] at htold
    rw [List.filterMap_reverse, List.reverse_reverse, List.filterMap_filterMap]
    exact htold

theorem session_accounted {ddxInt : WString → Option CInt} (actions : List Action)
    (own : Operator) (s : ServerState κ) :
    let spec := own.appConfig.load.confirmed.play ddxInt actions
    ((session ddxInt cp actions).expand (carryOut cp)).wp (office sv i) (.keeping (mine i))
      (fun _ own' s' => own'.files = own.files.save spec.2.config appConfigPath ∧
        ∃ sends, Accounted cp i own (mine i s) (spec.1 ++ spec.2.writes) sends own' s') own s := by
  intro spec
  rw [session_eq, expand_bind]
  apply wp_bind
  have hload : ((CAppConfig.loadFromFile appConfigPath).expand (carryOut cp)).wp (office sv i)
      (.keeping (mine i)) _ own s := wp_loadFromFile appConfigPath
  refine wp_mono hload ?_
  rintro config own' s' ⟨rfl, rfl, hs⟩
  apply wp_mono (expand_followed (sessionFrom ddxInt cp actions own'.appConfig.load) own' s')
  rintro _ own'' s'' ⟨o, _, h⟩
  have hacts : ((sessionFrom ddxInt cp actions own'.appConfig.load).trace o).1.filterMap observe =
      spec.1 ++ spec.2.writes := sessionFrom_acts actions _ o
  change mine i s' = mine i s at hs
  rw [hs] at h
  refine ⟨?_, h.accounted (sessionFrom_tells actions _) hacts⟩
  rw [h.files, hacts, List.foldl_append, foldl_after_play, foldl_after_writes]

end

end PrizeSender
