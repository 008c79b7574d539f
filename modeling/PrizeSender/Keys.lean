import PrizeSender.Sql

/-! What a table keeps of its keys and its rows while statements are answered. -/

namespace Sql

variable {sv : Server} {db db' db'' : Database} {table key : String} {tb : Table}
variable {st : Statement} {params : List Value} {row : Row} {columns : List Column}
variable {given : List (String × Value)} {nextId : Nat}

/-- Each row has a value for each column, and those of an AUTO_INCREMENT column
`key` increase from row to row and are below the counter. -/
structure Table.Keyed (tb : Table) (key : String) : Prop where
  auto : (tb.column? key).any Column.autoIncrement = true
  whole : ∀ row ∈ tb.rows, row.map Prod.fst = tb.columns.map Column.name
  below : ∀ row ∈ tb.rows, ∃ k : Int, row.lookup key = some (.int k) ∧ k < tb.nextId
  increasing : tb.rows.Pairwise fun row row' => ∀ k k' : Int,
    row.lookup key = some (.int k) → row'.lookup key = some (.int k') → k < k'

/-- No two rows of a keyed table have the same key. -/
theorem Table.Keyed.nodup (h : tb.Keyed key) : (tb.rows.map fun row => row.lookup key).Nodup := by
  rw [List.Nodup, List.pairwise_map]
  apply h.increasing.imp_of_mem
  intro row row' hmem hmem' hlt heq
  obtain ⟨k, hk, _⟩ := h.below row hmem
  have := hlt k k hk (heq ▸ hk)
  omega

theorem newRow_names (h : sv.newRow nextId given columns = some row) :
    row.map Prod.fst = columns.map Column.name := by
  induction columns generalizing row with
  | nil =>
    cases h
    rfl
  | cons c cs ih =>
    obtain ⟨v, _, h⟩ := Option.bind_eq_some_iff.mp h
    obtain ⟨tail, htail, h⟩ := Option.bind_eq_some_iff.mp h
    cases Option.some.inj h
    rw [List.map_cons, List.map_cons, ih htail]

/-- A new row whose key is not given gets the counter for it. -/
theorem newRow_key (h : sv.newRow nextId given columns = some row)
    (hauto : (columns.find? fun c => key == c.name).any Column.autoIncrement = true)
    (hg : given.lookup key = none) : row.lookup key = some (.int nextId) := by
  obtain ⟨c, hc, hauto⟩ := (Option.any_eq_true _ _).mp hauto
  obtain ⟨v, hv, hrow⟩ := newRow_lookup h hc
  have hmatch := List.find?_some hc
  have hname : c.name = key := (beq_iff_eq.mp hmatch).symm
  simp only [Server.cell, hname, hg, hauto, if_true, Option.some.injEq] at hv
  rw [hrow, hv]

theorem Table.Keyed.append (h : tb.Keyed key)
    (hrow : sv.newRow tb.nextId given tb.columns = some row) (hg : given.lookup key = none) :
    Table.Keyed { tb with rows := tb.rows ++ [row], nextId := tb.nextId + 1 } key := by
  have hkey := newRow_key hrow h.auto hg
  refine ⟨h.auto, ?_, ?_, ?_⟩
  · intro r hr
    rcases List.mem_append.mp hr with hr | hr
    · exact h.whole r hr
    · rw [List.mem_singleton.mp hr]
      exact newRow_names hrow
  · intro r hr
    rcases List.mem_append.mp hr with hr | hr
    · obtain ⟨k, hk, hlt⟩ := h.below r hr
      exact ⟨k, hk, by push_cast; omega⟩
    · rw [List.mem_singleton.mp hr]
      exact ⟨tb.nextId, hkey, by push_cast; omega⟩
  · apply List.pairwise_append.mpr
    refine ⟨h.increasing, List.pairwise_singleton _ _, ?_⟩
    intro r hr r' hr' k k' hk hk'
    obtain ⟨k₀, hk₀, hlt⟩ := h.below r hr
    rw [List.mem_singleton.mp hr', hkey] at hk'
    cases hk₀.symm.trans hk
    cases hk'
    exact hlt

def Database.Keyed (db : Database) (table key : String) : Prop :=
  ∀ tb, db table = some tb → tb.Keyed key

/-- A statement that leaves the key to the server: an INSERT does not give it,
a CREATE TABLE makes it AUTO_INCREMENT. -/
def Statement.LeavesKey (table key : String) : Statement → Prop
  | .insert t columns _ => t = table → key ∉ columns
  | .createTable t columns =>
    t = table → (columns.find? fun c => key == c.name).any Column.autoIncrement = true
  | _ => True

theorem lookup_zip_eq_none {names : List String} {vs : List Value} (h : key ∉ names) :
    (names.zip vs).lookup key = none := by
  apply List.lookup_eq_none_iff.mpr
  rintro ⟨name, v⟩ hp
  have hname := (List.of_mem_zip hp).1
  have hne : key ≠ name := fun he => h (he ▸ hname)
  simpa using hne

theorem Database.Keyed.apply (h : db.Keyed table key) (hst : st.LeavesKey table key) :
    ((sv.respond db st params).apply db).Keyed table key := by
  cases ha : sv.respond db st params with
  | rows n => exact h
  | error errno => exact h
  | created t columns =>
    obtain ⟨rfl, _⟩ := respond_created ha
    intro tb htb
    by_cases ht : table = t
    · subst ht
      simp only [Answer.apply, Function.update_self, Option.some.injEq] at htb
      subst htb
      exact ⟨hst rfl, by simp, by simp, List.Pairwise.nil⟩
    · exact h tb (by simpa [Answer.apply, Function.update_of_ne ht] using htb)
  | inserted t row =>
    obtain ⟨columns, values, tb₀, vs, rfl, htb₀, _, _, hrow⟩ := respond_inserted ha
    intro tb htb
    by_cases ht : table = t
    · subst ht
      simp only [Answer.apply, Function.update_self, htb₀, Option.map_some,
        Option.some.injEq] at htb
      subst htb
      exact (h tb₀ htb₀).append hrow (lookup_zip_eq_none (hst rfl))
    · exact h tb (by simpa [Answer.apply, Function.update_of_ne ht] using htb)

/-- Only `table` may have changed, and that by being created or by new rows
after the earlier ones. -/
structure Database.Grows (table : String) (db db' : Database) : Prop where
  others : ∀ t, t ≠ table → db' t = db t
  kept : ∀ tb, db table = some tb → ∃ tb', db' table = some tb' ∧ tb'.columns = tb.columns ∧
    tb.rows <+: tb'.rows ∧ tb'.nextId + tb.rows.length = tb.nextId + tb'.rows.length

theorem Database.Grows.refl : Database.Grows table db db :=
  ⟨fun _ _ => rfl, fun tb h => ⟨tb, h, rfl, List.prefix_rfl, rfl⟩⟩

theorem Database.Grows.trans (h : Database.Grows table db db')
    (h' : Database.Grows table db' db'') : Database.Grows table db db'' := by
  refine ⟨fun t ht => (h'.others t ht).trans (h.others t ht), ?_⟩
  intro tb htb
  obtain ⟨tb', htb', hcol, hrows, hid⟩ := h.kept tb htb
  obtain ⟨tb'', htb'', hcol', hrows', hid'⟩ := h'.kept tb' htb'
  exact ⟨tb'', htb'', hcol'.trans hcol, hrows.trans hrows', by omega⟩

theorem Database.Grows.apply (hst : ∀ t, st.table? = some t → t = table) :
    Database.Grows table db ((sv.respond db st params).apply db) := by
  have hframe : ∀ t, t ≠ table → (sv.respond db st params).apply db t = db t := by
    intro t ht
    apply apply_frame
    intro ha
    exact ht (hst t (respond_table? ha))
  refine ⟨hframe, ?_⟩
  intro tb htb
  cases ha : sv.respond db st params with
  | rows n => exact Database.Grows.refl.kept tb htb
  | error errno => exact Database.Grows.refl.kept tb htb
  | created t columns =>
    obtain ⟨rfl, hnone⟩ := respond_created ha
    have ht : t = table := hst t rfl
    subst ht
    cases hnone.symm.trans htb
  | inserted t row =>
    obtain ⟨columns, values, tb₀, vs, rfl, htb₀, _, _, _⟩ := respond_inserted ha
    have ht : t = table := hst t rfl
    subst ht
    exact ⟨{ tb with rows := tb.rows ++ [row], nextId := tb.nextId + 1 },
      by simp [Answer.apply, htb], rfl, List.prefix_append _ _, by simp; omega⟩

end Sql
