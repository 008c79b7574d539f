import PrizeSender.Delivery
import PrizeSender.Columns

namespace PrizeSender

open Prog Sql

variable {sv : Sql.Server} {cp : CodePage UInt16 UInt8} {ddxInt : WString → Option CInt}
variable {controls : Controls} {prize : CAppConfigPrize} {dbConfig : CAppConfigDb}
variable {o : Nat → Choice} {s : ServerState Unit}

/-- Between the two states account checks have been made of this name, and of no
other. -/
def Checked (account : Bytes) (s s' : ServerState Unit) : Prop :=
  ∃ es, s'.log = es ++ s.log ∧ (∃ e ∈ es, e.stmt = selectAccount) ∧
    ∀ e ∈ es, e.stmt = selectAccount → e.params = [.text account]

/-- The server after a run that has returned. -/
structure Sent (sv : Sql.Server) (account : Bytes) (prize : CAppConfigPrize)
    (s s' : ServerState Unit) (row : Row) : Prop where
  db : s'.db = withPrize s.db row
  whole : cString account = account
  found : AccountExists sv s.db account
  stored : ∀ p ∈ prizeGiven account prize, sv.Stored (prizeTable s.db).columns row p.1 p.2
  checked : Checked account s s'

theorem sendRun_sent (ha : acceptPrize ddxInt controls = some prize)
    (hok : (sendRun sv cp dbConfig prize o s).1 = .ok ()) :
    ∃ row, Sent sv (cp.encode prize.mUsername) prize s
      (sendRun sv cp dbConfig prize o s).2.2 row := by
  obtain ⟨es, hlog, hrep, hsend, _⟩ := sendRun_ran sv cp dbConfig prize o s
  rw [hok] at hsend
  have hz : cString (cp.encode prize.mUsername) = cp.encode prize.mUsername := cString_encode ha
  obtain ⟨hfound, t, row, hdb, hstored⟩ := hsend.effect_ok hrep
  refine ⟨row, hdb, hz, hfound, fun p hp => hstored p (prizeGiven_subset hz p hp), es, hlog, ?_⟩
  have hchecked := hsend.checked
  rwa [hz] at hchecked

/-- The row holds the values of the form. -/
structure Unaltered (cp : CodePage UInt16 UInt8) (prize : CAppConfigPrize) (row : Row) : Prop where
  account : ∃ b, row.lookup "account" = some (.text b) ∧ cp.Spells b prize.mUsername
  world : row.lookup "world" = some (.int prize.mWorld.toInt)
  charguid : row.lookup "charguid" = some (.int prize.mCharguid.toInt)
  itemid : row.lookup "itemid" = some (.int prize.mItem.toInt)
  itemnum : row.lookup "itemnum" = some (.int prize.mCount.toInt)

section

variable {cs : Charset} {mode : SqlMode} {same : Value → Value → Bool} {row : Row}

theorem unaltered_iff (hi : 1 ≤ prize.mItem.toInt)
    (hrow : ∀ p ∈ prizeGiven (cp.encode prize.mUsername) prize,
      (Server.ofMode cs mode same).Stored prizeColumns row p.1 p.2) :
    Unaltered cp prize row ↔ cp.Representable prize.mUsername ∧
      (mode = .strict ∨ (cs.length (cp.encode prize.mUsername) ≤ 50 ∧
        0 ≤ prize.mCharguid.toInt)) := by
  simp only [prizeGiven, List.mem_cons, List.not_mem_nil, or_false, forall_eq_or_imp,
    forall_eq] at hrow
  obtain ⟨haccount, hworld, hcharguid, hitemid, hitemnum, _⟩ := hrow
  have haccount := (stored_iff haccount rfl).trans (or_congr_right holds_varchar_iff)
  have hworld := (stored_iff hworld rfl).mpr (Or.inr (holds_int prize.mWorld))
  have hcharguid := (stored_iff hcharguid rfl).trans (or_congr_right (holds_intUnsigned _))
  have hitemid := (stored_iff hitemid rfl).mpr
    (Or.inr ((holds_intUnsigned prize.mItem).mpr (by omega)))
  have hitemnum := (stored_iff hitemnum rfl).mpr (Or.inr (holds_int prize.mCount))
  constructor
  · rintro ⟨⟨b, hb, hspells⟩, _, hguid, _, _⟩
    obtain ⟨rfl, hdecode⟩ := hspells
    refine ⟨CodePage.decode_encode_eq_self_iff.mp hdecode, ?_⟩
    rw [or_and_left]
    exact ⟨haccount.mp hb, hcharguid.mp hguid⟩
  · rintro ⟨hrep, hfits⟩
    rw [or_and_left] at hfits
    exact ⟨⟨_, haccount.mpr hfits.1, CodePage.spells_encode_iff.mpr hrep⟩, hworld,
      hcharguid.mpr hfits.2, hitemid, hitemnum⟩

end

/-- After a success message the new row holds the values of the form exactly
when the account name can be written in the code page and, on a server that is
not strict, it has at most 50 characters there and the character number is not
negative. -/
theorem onSendBnClicked_unaltered_iff (cs : Charset) (mode : SqlMode)
    (same : Value → Value → Bool) (cp : CodePage UInt16 UInt8) (ddxInt : WString → Option CInt)
    (dlg : CTlPrizeSenderDlg) (o : Nat → DeskChoice) (s : Desk) (controls : Controls)
    (prize : CAppConfigPrize) (ha : acceptPrize ddxInt controls = some prize)
    (hcols : ∀ tb, s.server.db "account_prize" = some tb → tb.columns = prizeColumns) :
    let s' := ((dlg.onSendBnClicked ddxInt cp controls).run
      (desk (.ofMode cs mode same) cp) o () s).2.2
    s'.shown = successMessage :: s.shown →
    ((∃ row, rowsOf s'.server.db "account_prize" =
        rowsOf s.server.db "account_prize" ++ [row] ∧ Unaltered cp prize row) ↔
      cp.Representable prize.mUsername ∧ (mode = .strict ∨
        (cs.length (cp.encode prize.mUsername) ≤ 50 ∧ 0 ≤ prize.mCharguid.toInt))) := by
  intro s' hshown
  have hok := (onSendBnClicked_shown dlg ha o s).mp hshown
  obtain ⟨row, hsent⟩ := sendRun_sent ha hok
  have hdb : s'.server.db = withPrize s.server.db row := by
    simp only [s', onSendBnClicked_run dlg ha, hsent.db]
  have hcolumns : (prizeTable s.server.db).columns = prizeColumns := by
    cases htb : s.server.db "account_prize" with
    | none => simp [prizeTable, htb]
    | some tb => simp [prizeTable, htb, hcols tb htb]
  have hstored := hsent.stored
  rw [hcolumns] at hstored
  rw [← unaltered_iff (acceptPrize_some ha).2.2.1 hstored, hdb, rowsOf_withPrize]
  simp

def negativeForm : Controls
  | .idcEdit3 => ⟨wide "-1", by decide⟩
  | id => prizeForm id

def lenientServer : Sql.Server := .ofMode .singleByte .lenient fun v w => v = w

theorem onSendBnClicked_unaltered_iff_admin :
    let s' := ((CTlPrizeSenderDlg.onSendBnClicked decimalInt asciiPage prizeForm {}).run
      (desk lenientServer asciiPage) (fun _ => .answered) () adminDesk).2.2
    (∃ row, rowsOf s'.server.db "account_prize" = [row] ∧
        Unaltered asciiPage ⟨wide "admin", 0, 1, 20101001, 1⟩ row) ↔
      asciiPage.Representable (wide "admin") ∧ (SqlMode.lenient = .strict ∨
        (Charset.singleByte.length (asciiPage.encode (wide "admin")) ≤ 50 ∧
          0 ≤ (1 : CInt).toInt)) :=
  onSendBnClicked_unaltered_iff .singleByte .lenient _ asciiPage decimalInt {}
    (fun _ => .answered) adminDesk prizeForm ⟨wide "admin", 0, 1, 20101001, 1⟩ (by decide)
    (fun _ h => nomatch h) (by decide)

/-- A prize for the character -1 goes to the character 0. -/
theorem onSendBnClicked_alters_negative :
    let s' := ((CTlPrizeSenderDlg.onSendBnClicked decimalInt asciiPage negativeForm {}).run
      (desk lenientServer asciiPage) (fun _ => .answered) () adminDesk).2.2
    s'.shown = [successMessage] ∧
      ¬ ∃ row, rowsOf s'.server.db "account_prize" = [row] ∧
        Unaltered asciiPage ⟨wide "admin", 0, -1, 20101001, 1⟩ row := by
  intro s'
  refine ⟨by decide, ?_⟩
  rintro ⟨row, hrow, hunaltered⟩
  have hguid : (rowsOf s'.server.db "account_prize").map (·.lookup "charguid") =
      [some (.int 0)] := by decide
  rw [hrow, List.map_singleton, hunaltered.charguid] at hguid
  exact absurd hguid (by decide)

end PrizeSender
