import PrizeSender.Fidelity

namespace PrizeSender

open Prog Sql

variable {sv : Sql.Server} {cp : CodePage UInt16 UInt8} {db : Database} {account b : Bytes}
variable {prize : CAppConfigPrize} {s s' : ServerState Unit} {row : Row}

theorem checked_unique (h : Checked account s s') (h' : Checked b s s') : account = b := by
  obtain ⟨es, hlog, ⟨e, he, hst⟩, hparams⟩ := h
  obtain ⟨es', hlog', _, hparams'⟩ := h'
  obtain rfl : es = es' := List.append_cancel_right (hlog.symm.trans hlog')
  have heq := (hparams e he hst).symm.trans (hparams' e he hst)
  simpa using heq

/-- The account column of the prize table stores this name as it is given. -/
def KeepsAccount (sv : Sql.Server) (db : Database) (account : Bytes) : Prop :=
  ∃ c, (prizeTable db).column? "account" = some c ∧
    sv.convert c (.text account) = some (.text account)

/-- The account with the name `b`, and no other, has been checked, exists and has
got the one new prize; and `b` decodes to the name typed. -/
structure SendsTo (cp : CodePage UInt16 UInt8) (username : WString) (s s' : ServerState Unit)
    (b : Bytes) : Prop where
  checked : Checked b s s'
  found : ∃ tb row, s.db "account" = some tb ∧ row ∈ tb.rows ∧ row.lookup "name" = some (.text b)
  inserted : ∃ row, rowsOf s'.db "account_prize" = rowsOf s.db "account_prize" ++ [row] ∧
    row.lookup "account" = some (.text b)
  decodes : cp.decode b = username

theorem sendsTo_iff (hsame : ∀ v w, sv.same v w = decide (v = w))
    (hsent : Sent sv (cp.encode prize.mUsername) prize s s' row) :
    (∃ b, SendsTo cp prize.mUsername s s' b) ↔
      cp.Representable prize.mUsername ∧ KeepsAccount sv s.db (cp.encode prize.mUsername) := by
  have hrows : rowsOf s'.db "account_prize" = rowsOf s.db "account_prize" ++ [row] := by
    rw [hsent.db, rowsOf_withPrize]
  obtain ⟨c, w, hc, hw, hl⟩ := hsent.stored ("account", .text (cp.encode prize.mUsername))
    (by simp [prizeGiven])
  constructor
  · rintro ⟨b, hb⟩
    obtain rfl := checked_unique hsent.checked hb.checked
    obtain ⟨row', hrow', hl'⟩ := hb.inserted
    obtain rfl : row = row' := by simpa using hrows.symm.trans hrow'
    cases hl.symm.trans hl'
    exact ⟨CodePage.decode_encode_eq_self_iff.mp hb.decodes, c, hc, hw⟩
  · rintro ⟨hrep, c', hc', hw'⟩
    cases hc.symm.trans hc'
    cases hw.symm.trans hw'
    obtain ⟨tb, named, name, htb, _, hmem, hname, hs⟩ := hsent.found
    refine ⟨_, hsent.checked, ⟨tb, named, htb, hmem, ?_⟩, ⟨row, hrows, hl⟩,
      CodePage.decode_encode_eq_self_iff.mpr hrep⟩
    rw [hsame, hsent.whole, decide_eq_true_iff] at hs
    rw [hname, hs]

/-- After a success message the prize has gone to the account typed, and to that
of no other name, exactly when the name can be written in the code page and the
account column stores it as it is given. -/
theorem onSendBnClicked_sendsTo_iff (sv : Sql.Server)
    (hsame : ∀ v w, sv.same v w = decide (v = w)) (cp : CodePage UInt16 UInt8)
    (ddxInt : WString → Option CInt) (dlg : CTlPrizeSenderDlg) (o : Nat → DeskChoice) (s : Desk)
    (controls : Controls) (prize : CAppConfigPrize)
    (ha : acceptPrize ddxInt controls = some prize) :
    let s' := ((dlg.onSendBnClicked ddxInt cp controls).run (desk sv cp) o () s).2.2
    s'.shown = successMessage :: s.shown →
    ((∃ b, SendsTo cp prize.mUsername s.server s'.server b ∧
        ∀ username, username ≠ prize.mUsername → cp.decode b ≠ username) ↔
      cp.Representable prize.mUsername ∧
        KeepsAccount sv s.server.db (cp.encode prize.mUsername)) := by
  intro s' hshown
  have hok := (onSendBnClicked_shown dlg ha o s).mp hshown
  obtain ⟨row, hsent⟩ := sendRun_sent ha hok
  have hs' : s'.server = (sendRun sv cp dlg.mAppConfig.mDbConfig prize (o 3).calls s.server).2.2 :=
    by simp only [s', onSendBnClicked_run dlg ha]
  rw [← sendsTo_iff hsame hsent, hs']
  refine exists_congr fun b => and_iff_left_of_imp ?_
  intro hb username hne hdecode
  exact hne (hdecode.symm.trans hb.decodes)

theorem onSendBnClicked_sendsTo_iff_admin :
    let s' := ((CTlPrizeSenderDlg.onSendBnClicked decimalInt asciiPage prizeForm {}).run
      (desk .exact asciiPage) (fun _ => .answered) () adminDesk).2.2
    (∃ b, SendsTo asciiPage (wide "admin") adminDesk.server s'.server b ∧
        ∀ username, username ≠ wide "admin" → asciiPage.decode b ≠ username) ↔
      asciiPage.Representable (wide "admin") ∧
        KeepsAccount .exact adminDb (asciiPage.encode (wide "admin")) :=
  onSendBnClicked_sendsTo_iff .exact (fun _ _ => rfl) asciiPage decimalInt {}
    (fun _ => .answered) adminDesk prizeForm ⟨wide "admin", 0, 1, 20101001, 1⟩ (by decide)
    (by decide)

def macronForm : Controls
  | .idcEdit1 => ⟨[0x100], by decide⟩
  | id => prizeForm id

/-- A desk whose server has the account `A` only. -/
def latinDesk : Desk := { Desk.empty with
  server := ⟨Function.update (fun _ => none) "account" (some
    ⟨[{ name := "name", type := .varchar 50 }], [[("name", .text (ascii "A"))]], 2⟩), []⟩ }

/-- A prize for the account `Ā`, which does not exist, goes to the account `A`. -/
theorem onSendBnClicked_sends_to_other :
    let s' := ((CTlPrizeSenderDlg.onSendBnClicked decimalInt asciiPage macronForm {}).run
      (desk .exact asciiPage) (fun _ => .answered) () latinDesk).2.2
    s'.shown = [successMessage] ∧
      (rowsOf s'.server.db "account_prize").map (·.lookup "account") =
        [some (.text (asciiPage.encode (wide "A")))] ∧
      ¬ ∃ b, SendsTo asciiPage [0x100] latinDesk.server s'.server b := by
  intro s'
  have haccount : (rowsOf s'.server.db "account_prize").map (·.lookup "account") =
      [some (.text (asciiPage.encode (wide "A")))] := by decide
  refine ⟨by decide, haccount, ?_⟩
  rintro ⟨b, hb⟩
  obtain ⟨row, hrow, hl⟩ := hb.inserted
  have hnil : rowsOf latinDesk.server.db "account_prize" = [] := rfl
  rw [hrow, hnil, List.nil_append, List.map_singleton, hl] at haccount
  have hA : b = asciiPage.encode (wide "A") := by simpa using haccount
  have hdecode := hb.decodes
  rw [hA] at hdecode
  exact absurd hdecode (by decide)

end PrizeSender
