import Mathlib.Data.List.Basic

/-- A code page: the characters it has with their bytes, and the character of
its own by which it replaces every other one. -/
structure CodePage (α β : Type) [Zero α] [Zero β] where
  code : α → Option (List β)
  fit : α → α
  decode : List β → List α
  fit_isSome : ∀ u, (code (fit u)).isSome
  decode_code : ∀ s : List α, (∀ u ∈ s, (code u).isSome) →
    decode (s.flatMap fun u => (code u).getD []) = s
  zero_notMem_code : ∀ u b, u ≠ 0 → code u = some b → 0 ∉ b
  fit_ne_zero : ∀ u, u ≠ 0 → fit u ≠ 0

namespace CodePage

variable {α β : Type} [Zero α] [Zero β] {page : CodePage α β} {s : List α} {u : α}

def replace (page : CodePage α β) (u : α) : α :=
  if (page.code u).isSome then u else page.fit u

def encode (page : CodePage α β) (s : List α) : List β :=
  (s.map page.replace).flatMap fun u => (page.code u).getD []

/-- Text made of characters of the code page only. -/
def Representable (page : CodePage α β) (s : List α) : Prop := ∀ u ∈ s, (page.code u).isSome

instance : Decidable (page.Representable s) := List.decidableBAll _ s

theorem replace_isSome : (page.code (page.replace u)).isSome := by
  unfold replace
  split
  next h => exact h
  next => exact page.fit_isSome u

theorem replace_eq_self_iff : page.replace u = u ↔ (page.code u).isSome := by
  constructor
  · intro h
    rw [← h]
    exact replace_isSome
  · intro h
    simp [replace, h]

theorem decode_encode (page : CodePage α β) (s : List α) :
    page.decode (page.encode s) = s.map page.replace := by
  apply page.decode_code
  intro u hu
  obtain ⟨v, _, rfl⟩ := List.mem_map.mp hu
  exact replace_isSome

/-- The way through the code page is exact on representable text only. -/
theorem decode_encode_eq_self_iff : page.decode (page.encode s) = s ↔ page.Representable s := by
  rw [decode_encode]
  constructor
  · intro h u hu
    have hmap : s.map page.replace = s.map id := by simpa using h
    exact replace_eq_self_iff.mp (List.map_inj_left.mp hmap u hu)
  · intro h
    conv_rhs => rw [← List.map_id s]
    exact List.map_inj_left.mpr fun u hu => replace_eq_self_iff.mpr (h u hu)

/-- Each of the two is what the code page makes of the other. -/
def Spells (page : CodePage α β) (b : List β) (s : List α) : Prop :=
  page.encode s = b ∧ page.decode b = s

theorem spells_encode_iff : page.Spells (page.encode s) s ↔ page.Representable s :=
  (and_iff_right rfl).trans decode_encode_eq_self_iff

theorem zero_notMem_encode (h : (0 : α) ∉ s) : (0 : β) ∉ page.encode s := by
  intro hz
  obtain ⟨v, hv, hb⟩ := List.mem_flatMap.mp hz
  obtain ⟨u, hu, rfl⟩ := List.mem_map.mp hv
  have hu0 : u ≠ 0 := fun h0 => h (h0 ▸ hu)
  have hr0 : page.replace u ≠ 0 := by
    unfold replace
    split
    next => exact hu0
    next => exact page.fit_ne_zero u hu0
  have hsome : (page.code (page.replace u)).isSome := replace_isSome
  obtain ⟨b, hc⟩ := Option.isSome_iff_exists.mp hsome
  rw [hc] at hb
  exact page.zero_notMem_code _ b hr0 hc hb

end CodePage
