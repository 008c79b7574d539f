import Mathlib.Tactic.Choose
import Mathlib.Logic.Function.Basic

/-! Lists merged into one, and what is left in a store when the lists are writes
of the same keys. -/

/-- `l` takes the elements of the lists `f i`, those of each list in order. -/
inductive Shuffle {κ A : Type} [DecidableEq κ] : (κ → List A) → List A → Prop where
  | nil {f : κ → List A} (h : ∀ i, f i = []) : Shuffle f []
  | cons {f : κ → List A} {i : κ} {a : A} {as l : List A} (h : f i = a :: as)
      (rest : Shuffle (Function.update f i as) l) : Shuffle f (a :: l)

namespace Shuffle

variable {κ A K V : Type} [DecidableEq κ] [DecidableEq K]

/-- One element of each list in `order` comes first. -/
theorem heads {f g : κ → List A} {head : κ → A} {order : List κ} {l : List A} (hnd : order.Nodup)
    (hmem : ∀ i ∈ order, f i = head i :: g i) (hnot : ∀ i, i ∉ order → f i = g i)
    (h : Shuffle g l) : Shuffle f (order.map head ++ l) := by
  induction order generalizing f with
  | nil =>
    obtain rfl : f = g := funext fun i => hnot i List.not_mem_nil
    exact h
  | cons i order ih =>
    obtain ⟨hi, hnd⟩ := List.nodup_cons.mp hnd
    refine .cons (hmem i List.mem_cons_self) (ih hnd ?_ ?_)
    · intro j hj
      have hij : j ≠ i := fun h => hi (h ▸ hj)
      rw [Function.update_of_ne hij]
      exact hmem j (List.mem_cons_of_mem i hj)
    · intro j hj
      by_cases hij : j = i
      · rw [hij, Function.update_self]
      · rw [Function.update_of_ne hij]
        exact hnot j (by simp [hij, hj])

/-- The write of `a` into a store. -/
def put (key : A → K) (value : A → V) (m : K → V) (a : A) : K → V :=
  Function.update m (key a) (value a)

variable {key : A → K} {value : A → V} {as l : List A} {f : κ → List A} {m m' : K → V} {k : K}
variable {keys : List K}

theorem foldl_put_frame (hk : k ∉ as.map key) : as.foldl (put key value) m k = m k := by
  induction as generalizing m with
  | nil => rfl
  | cons a as ih =>
    rw [List.map_cons, List.mem_cons, not_or] at hk
    rw [List.foldl_cons, ih hk.2]
    exact Function.update_of_ne hk.1 _ _

theorem foldl_put_of_mem {a : A} (hnd : (as.map key).Nodup) (h : a ∈ as) :
    as.foldl (put key value) m (key a) = value a := by
  induction as generalizing m with
  | nil => cases h
  | cons b as ih =>
    obtain ⟨hb, hnd⟩ := List.nodup_cons.mp hnd
    rcases List.mem_cons.mp h with rfl | h
    · exact (foldl_put_frame hb).trans (Function.update_self _ _ _)
    · exact ih hnd h

/-- A key holds what one of the lists writes, or none of them writes it. -/
theorem foldl_put (key : A → K) (value : A → V) (h : Shuffle f l) (m : K → V) (k : K) :
    (∃ i, ∃ a ∈ f i, key a = k ∧ l.foldl (put key value) m k = value a) ∨
      (∀ i, k ∉ (f i).map key) ∧ l.foldl (put key value) m k = m k := by
  induction h generalizing m with
  | nil h => exact Or.inr ⟨by simp [h], rfl⟩
  | @cons f i a as l hf _ ih =>
    have hsub : ∀ j, Function.update f i as j ⊆ f j := by
      intro j
      by_cases hj : j = i
      · subst hj
        simp [hf]
      · simp [Function.update_of_ne hj]
    rcases ih (put key value m a) with ⟨j, b, hb, hbk⟩ | ⟨hno, hkeep⟩
    · exact Or.inl ⟨j, b, hsub j hb, hbk⟩
    by_cases hk : k = key a
    · subst hk
      exact Or.inl ⟨i, a, by simp [hf], rfl, hkeep.trans (Function.update_self _ _ _)⟩
    · refine Or.inr ⟨fun j => ?_, hkeep.trans (Function.update_of_ne hk _ _)⟩
      by_cases hj : j = i
      · have hi := hno i
        rw [Function.update_self] at hi
        rw [hj, hf, List.map_cons, List.mem_cons, not_or]
        exact ⟨hk, hi⟩
      · simpa only [Function.update_of_ne hj] using hno j

/-- Writers of the same keys can be merged so that each key is last written by
the one chosen for it. -/
theorem exists_chosen (value : A → V) {all : List κ} (hall : ∀ i, i ∈ all) (hnd : all.Nodup) (choice : K → κ)
    (hkeys : keys.Nodup) (hf : ∀ i, (f i).map key = keys) :
    ∃ l, Shuffle f l ∧ ∀ m, ∀ a ∈ f (choice (key a)),
      l.foldl (put key value) m (key a) = value a := by
  induction keys generalizing f with
  | nil =>
    have hnil : ∀ i, f i = [] := fun i => List.map_eq_nil_iff.mp (hf i)
    exact ⟨[], .nil hnil, fun m a ha => by simp [hnil] at ha⟩
  | cons k keys ih =>
    obtain ⟨hk, hkeys⟩ := List.nodup_cons.mp hkeys
    have hcons : ∀ i, ∃ a as, f i = a :: as ∧ key a = k ∧ as.map key = keys :=
      fun i => List.map_eq_cons_iff.mp (hf i)
    choose head g hcons hhead hg using hcons
    obtain ⟨l, hl, hchosen⟩ := ih hkeys hg
    -- the one chosen for `k` writes it after the others
    let order := all.erase (choice k) ++ [choice k]
    have horder : order.Perm all :=
      List.perm_append_comm.trans (List.perm_cons_erase (hall (choice k))).symm
    refine ⟨order.map head ++ l, ?_, ?_⟩
    · refine heads (horder.nodup_iff.mpr hnd) (fun i _ => hcons i) (fun i hi => ?_) hl
      exact absurd (horder.mem_iff.mpr (hall i)) hi
    · intro m a ha
      rw [List.foldl_append]
      rw [hcons, List.mem_cons] at ha
      rcases ha with ha | ha
      · have hak : key a = k := by rw [ha, hhead]
        rw [hak] at ha ⊢
        rcases foldl_put key value hl ((order.map head).foldl (put key value) m) k with
          ⟨i, b, hb, hbk, _⟩ | ⟨_, hkeep⟩
        · refine absurd ?_ hk
          rw [← hg i, ← hbk]
          exact List.mem_map_of_mem hb
        · rw [hkeep, List.map_append, List.foldl_append, ha]
          simp [put, hhead]
      · exact hchosen _ a ha

/-- The stores that writers of the same keys can leave: each key is as one of
them would leave it alone. -/
theorem foldl_put_iff {all : List κ} (hall : ∀ i, i ∈ all) (hnd : all.Nodup) [Nonempty κ]
    (hkeys : keys.Nodup) (hf : ∀ i, (f i).map key = keys) :
    (∃ l, Shuffle f l ∧ l.foldl (put key value) m = m') ↔
      ∃ choice : K → κ, ∀ k, m' k = (f (choice k)).foldl (put key value) m k := by
  have halone : ∀ i, ∀ a ∈ f i, (f i).foldl (put key value) m (key a) = value a := by
    intro i a ha
    refine foldl_put_of_mem ?_ ha
    rwa [hf]
  constructor
  · rintro ⟨l, hl, rfl⟩
    have hone : ∀ k, ∃ i, l.foldl (put key value) m k = (f i).foldl (put key value) m k := by
      intro k
      rcases foldl_put key value hl m k with ⟨i, a, ha, rfl, hla⟩ | ⟨hno, hkeep⟩
      · exact ⟨i, by rw [hla, halone i a ha]⟩
      · obtain ⟨i⟩ := ‹Nonempty κ›
        exact ⟨i, by rw [hkeep, foldl_put_frame (hno i)]⟩
    choose choice hchoice using hone
    exact ⟨choice, hchoice⟩
  · rintro ⟨choice, hm'⟩
    obtain ⟨l, hl, hchosen⟩ := exists_chosen value hall hnd choice hkeys hf
    refine ⟨l, hl, funext fun k => ?_⟩
    rw [hm']
    rcases foldl_put key value hl m k with ⟨i, a, ha, rfl, _⟩ | ⟨hno, hkeep⟩
    · have hkey : key a ∈ (f (choice (key a))).map key := by
        rw [hf, ← hf i]
        exact List.mem_map_of_mem ha
      obtain ⟨b, hb, hba⟩ := List.mem_map.mp hkey
      rw [← hba] at hb ⊢
      rw [hchosen m b hb, halone _ b hb]
    · rw [hkeep, foldl_put_frame (hno _)]

end Shuffle
