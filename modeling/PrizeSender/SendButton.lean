import PrizeSender.ProfileFile
import PrizeSender.Told

namespace PrizeSender

open Prog CTlPrizeSenderDlg

/-- The send button, and how it was at each send and at each message. -/
structure SendButton where
  caption : LineText
  enabled : Bool := true
  sends : List (LineText × Bool) := []
  messages : List (MbIcon × Bool) := []

/-- The windows keep the state of the button; every other reply is open. -/
def window : Env UiCall UiCall.Reply ((c : UiCall) → c.Reply) Unit SendButton :=
  fun x _ s c =>
  match c with
  | .getWindowText => (s.caption, (), s)
  | .setWindowText text => ((), (), { s with caption := firstLine text })
  | .enableWindow enable => ((), (), { s with enabled := enable })
  | .messageBox _ _ icon => ((), (), { s with messages := (icon, s.enabled) :: s.messages })
  | .processSendPrize db username world charguid item count =>
    (x (.processSendPrize db username world charguid item count), (),
      { s with sends := (s.caption, s.enabled) :: s.sends })
  | c => (x c, (), s)

def sendingCaption : LineText := firstLine (wide "发放中...")

/-- The button is as at the start, and it was disabled during every send and
under every message of failure, but not under those of success. -/
structure Restored (caption : LineText) (s : SendButton) : Prop where
  caption : s.caption = caption
  enabled : s.enabled = true
  sends : ∀ x ∈ s.sends, x = (sendingCaption, false)
  messages : ∀ x ∈ s.messages, x.2 = false ↔ x.1 = .stop

variable {ddxInt : WString → Option CInt} {cp : CodePage UInt16 UInt8} {controls : Controls}
variable {caption : LineText} {s : SendButton} {dlg : CTlPrizeSenderDlg}
variable {α β : Type} {Q : α → Unit → SendButton → Prop}

theorem firstLine_lineText (t : LineText) : firstLine t.text = t := by
  have htext := firstLine_text t.oneLine
  cases h : firstLine t.text
  rw [h] at htext
  cases htext
  rfl

theorem wp_window {c : UiCall} {k : c.Reply → Ui β} {Q : β → Unit → SendButton → Prop}
    (h : ∀ x, (k (window x () s c).1).wp window .alone Q () (window x () s c).2.2) :
    (Ui.call c >>= k).wp window .alone Q () s := by
  rintro s' ⟨⟩ x
  exact h x

theorem wp_plain {p : Ui α} (hp : p.Calls UiCall.Plain) (h : ∀ a, Q a () s) :
    p.wp window .alone Q () s := by
  induction p with
  | pure a =>
    rintro s' ⟨⟩
    exact h a
  | call c k ih =>
    rintro s' ⟨⟩ x
    have hsame : (window x () s c).2.2 = s := by
      obtain ⟨hc, _⟩ := hp
      cases c <;> first | rfl | exact hc.elim
    rw [hsame]
    exact ih _ (hp.2 _)

theorem loadFromFile_plain (filePath : String) :
    (CAppConfig.loadFromFile filePath).Calls UiCall.Plain := by
  apply makes_calls (loadFromFile_makes filePath)
  simp only [loadCalls, List.forall_mem_cons]
  simp [UiCall.Plain]

theorem onSendBnClicked_restores (hs : Restored caption s) :
    (dlg.onSendBnClicked ddxInt cp controls).wp window .alone (fun _ _ s' => Restored caption s')
      () s := by
  cases ha : acceptPrize ddxInt controls with
  | none =>
    have hplain := updateData_save_plain ddxInt controls dlg
    obtain ⟨dlg', _, hup | ⟨prompt, icon, hup⟩⟩ := updateData_prize_none dlg ha
    · unfold onSendBnClicked
      rw [hup]
      exact wp_plain calls_pure fun _ => hs
    · unfold onSendBnClicked
      rw [hup] at hplain ⊢
      exact wp_plain (calls_perform hplain.1 fun _ => calls_pure) fun _ => hs
  | some prize =>
    rw [onSendBnClicked_accepted dlg ha]
    refine wp_window fun _ => wp_window fun _ => wp_window fun _ => wp_window fun x => ?_
    have hsends : ∀ x ∈ (sendingCaption, false) :: s.sends, x = (sendingCaption, false) :=
      List.forall_mem_cons.mpr ⟨rfl, hs.sends⟩
    have hcaption : firstLine s.caption.text = caption := by
      rw [firstLine_lineText, hs.caption]
    dsimp only [window]
    generalize x (.processSendPrize _ _ _ _ _ _) = result
    cases result with
    | error what =>
      refine wp_window fun _ => wp_window fun _ => wp_window fun _ => ?_
      rintro s' ⟨⟩
      exact ⟨hcaption, rfl, hsends, List.forall_mem_cons.mpr ⟨by simp, hs.messages⟩⟩
    | ok _ =>
      refine wp_window fun _ => wp_window fun _ => wp_window fun _ => ?_
      rintro s' ⟨⟩
      exact ⟨hcaption, rfl, hsends, List.forall_mem_cons.mpr ⟨by simp [window], hs.messages⟩⟩

theorem play_restores (actions : List Action) (hs : Restored caption s) :
    (dlg.play ddxInt cp actions).wp window .alone (fun _ _ s' => Restored caption s') () s := by
  induction actions generalizing dlg s with
  | nil => exact wp_plain calls_pure fun _ => hs
  | cons action actions ih =>
    cases action with
    | showSetting presses =>
      rw [CTlPrizeSenderDlg.play]
      exact wp_bind (wp_plain (onShowSettingDlg_plain presses dlg) fun _ => ih hs)
    | send controls =>
      rw [CTlPrizeSenderDlg.play]
      refine wp_bind ?_
      refine wp_mono (onSendBnClicked_restores hs) ?_
      rintro dlg' ⟨⟩ s' hs'
      exact ih hs'
    | enter controls =>
      rw [CTlPrizeSenderDlg.play]
      refine wp_bind (wp_plain (updateData_save_plain ddxInt controls dlg) ?_)
      rintro ⟨accepted, dlg'⟩
      cases accepted with
      | true => exact wp_plain calls_pure fun _ => hs
      | false => exact ih hs

/-- Whatever is done in a session and whatever becomes of the sends, the button is
left as it was found, and every send finds it disabled. -/
theorem session_restores (ddxInt : WString → Option CInt) (cp : CodePage UInt16 UInt8)
    (actions : List Action) (caption : LineText) (o : Nat → (c : UiCall) → c.Reply) :
    Restored caption ((session ddxInt cp actions).run window o () { caption }).2.2 := by
  have hstart : Restored caption { caption } := ⟨rfl, rfl, by simp, by simp⟩
  have hwp : (session ddxInt cp actions).wp window .alone (fun _ _ s' => Restored caption s') ()
      { caption } := by
    rw [session_eq]
    refine wp_bind (wp_plain (loadFromFile_plain _) fun config => ?_)
    refine wp_bind (wp_plain (updateData_show_plain _) ?_)
    rintro ⟨_, dlg⟩
    refine wp_bind ?_
    refine wp_mono (play_restores actions hstart) ?_
    rintro dlg' ⟨⟩ s' hs'
    exact wp_plain (onDestroy_plain dlg') fun _ => hs'
  exact run_of_wp hwp o

end PrizeSender
