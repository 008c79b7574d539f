import Mathlib.Logic.Function.Basic
import Mathlib.Data.List.Basic

/-! A small store of tables and the statements sent to it. -/

namespace Sql

inductive Value where
  | text (b : List UInt8)
  | int (i : Int)
  deriving DecidableEq, Repr

inductive ColumnType where
  | varchar (width : Nat)
  | int
  | intUnsigned
  | smallint
  | bigint
  deriving DecidableEq, Repr

structure Column where
  name : String
  type : ColumnType
  autoIncrement : Bool := false
  default : Option Value := none
  deriving DecidableEq, Repr

abbrev Row := List (String × Value)

structure Table where
  columns : List Column
  rows : List Row
  nextId : Nat
  deriving DecidableEq, Repr

abbrev Database := String → Option Table

/-- One entry of a VALUES list. -/
inductive Term where
  | param
  | lit (v : Value)
  deriving DecidableEq, Repr

inductive Statement where
  /-- SELECT 1 FROM table WHERE column = ? LIMIT 1 -/
  | selectOne (table column : String)
  /-- SELECT EXISTS(SELECT 1 FROM table) -/
  | selectExists (table : String)
  | createTable (table : String) (columns : List Column)
  | insert (table : String) (columns : List String) (values : List Term)
  deriving DecidableEq, Repr

/-- An error number of the server, an `unsigned int`. -/
abbrev Errno := BitVec 32

inductive Answer where
  | rows (n : Nat)
  | created (table : String) (columns : List Column)
  | inserted (table : String) (row : Row)
  | error (errno : Errno)
  deriving DecidableEq, Repr

def erTableExistsError : Errno := 1050
def erBadFieldError : Errno := 1054
def erWrongValueCount : Errno := 1136
def erNoSuchTable : Errno := 1146
def erWrongArguments : Errno := 1210
def erWarnDataOutOfRange : Errno := 1264

/-- The conversions and the comparison of a server: a value that a column does
not take makes the statement fail. -/
structure Server where
  convert : Column → Value → Option Value
  same : Value → Value → Bool

def Server.exact : Server := ⟨fun _ v => some v, fun v w => v = w⟩

def Table.column? (tb : Table) (name : String) : Option Column :=
  tb.columns.find? fun c => name == c.name

/-- The error a statement is refused with as soon as it is parsed. -/
def Statement.refused (db : Database) : Statement → Option Errno
  | .selectOne table column =>
    match db table with
    | none => some erNoSuchTable
    | some tb => if (tb.column? column).isSome then none else some erBadFieldError
  | .selectExists table => if (db table).isSome then none else some erNoSuchTable
  | .createTable table _ => if (db table).isSome then some erTableExistsError else none
  | .insert table columns values =>
    match db table with
    | none => some erNoSuchTable
    | some tb =>
      if columns.all (fun c => (tb.column? c).isSome) then
        if columns.length = values.length then none else some erWrongValueCount
      else some erBadFieldError

def bindTerms : List Term → List Value → Option (List Value)
  | [], [] => some []
  | .lit v :: ts, ps => (bindTerms ts ps).map (v :: ·)
  | .param :: ts, p :: ps => (bindTerms ts ps).map (p :: ·)
  | _, _ => none

def Server.cell (sv : Server) (nextId : Nat) (given : List (String × Value)) (c : Column) :
    Option Value :=
  match given.lookup c.name with
  | some v => sv.convert c v
  | none => if c.autoIncrement then some (.int nextId) else c.default

def Server.newRow (sv : Server) (nextId : Nat) (given : List (String × Value)) :
    List Column → Option Row
  | [] => some []
  | c :: cs => do
    let v ← sv.cell nextId given c
    let row ← newRow sv nextId given cs
    pure ((c.name, v) :: row)

def Server.matching (sv : Server) (tb : Table) (column : String) (v : Value) : List Row :=
  tb.rows.filter fun row => (row.lookup column).any fun w => sv.same w v

/-- The answer of the server to a statement and its parameters. -/
def Server.respond (sv : Server) (db : Database) (st : Statement) (params : List Value) : Answer :=
  match st.refused db with
  | some e => .error e
  | none =>
    match st with
    | .selectOne table column =>
      match db table, params with
      | some tb, [v] => .rows (min 1 (sv.matching tb column v).length)
      | _, _ => .error erWrongArguments
    | .selectExists _ => .rows 1
    | .createTable table columns => .created table columns
    | .insert table columns values =>
      match db table, bindTerms values params with
      | some tb, some vs =>
        match sv.newRow tb.nextId (columns.zip vs) tb.columns with
        | some row => .inserted table row
        | none => .error erWarnDataOutOfRange
      | _, _ => .error erWrongArguments

theorem respond_created {sv : Server} {db : Database} {st : Statement} {params : List Value}
    {table : String} {columns : List Column} (h : sv.respond db st params = .created table columns) :
    st = .createTable table columns ∧ db table = none := by
  unfold Server.respond at h
  split at h
  next => cases h
  next hr =>
    split at h
    next => split at h <;> cases h
    next => cases h
    next t cs =>
      cases h
      refine ⟨rfl, ?_⟩
      by_contra hn
      simp [Statement.refused, Option.isSome_iff_ne_none.mpr hn] at hr
    next =>
      split at h
      next => split at h <;> cases h
      next => cases h

theorem respond_inserted {sv : Server} {db : Database} {st : Statement} {params : List Value}
    {table : String} {row : Row} (h : sv.respond db st params = .inserted table row) :
    ∃ columns values tb vs, st = .insert table columns values ∧ db table = some tb ∧
      (∀ c ∈ columns, (tb.column? c).isSome) ∧ bindTerms values params = some vs ∧
      sv.newRow tb.nextId (columns.zip vs) tb.columns = some row := by
  unfold Server.respond at h
  split at h
  next => cases h
  next hr =>
    split at h
    next => split at h <;> cases h
    next => cases h
    next => cases h
    next t columns values =>
      split at h
      next tb vs ht hvs =>
        split at h
        next row' hrow =>
          cases h
          refine ⟨columns, values, tb, vs, rfl, ht, ?_, hvs, hrow⟩
          intro c hc
          by_contra hn
          have hall : columns.all (fun c => (tb.column? c).isSome) = false :=
            List.all_eq_false.mpr ⟨c, hc, hn⟩
          simp [Statement.refused, ht, hall] at hr
        next => cases h
      next => cases h

theorem refused_ne_wrongArguments {db : Database} {st : Statement} {errno : Errno}
    (h : st.refused db = some errno) : errno ≠ erWrongArguments := by
  unfold Statement.refused at h
  rintro rfl
  split at h
  next =>
    split at h
    next => cases h
    next => split at h <;> cases h
  next => split at h <;> cases h
  next => split at h <;> cases h
  next =>
    split at h
    next => cases h
    next =>
      split at h
      next => split at h <;> cases h
      next => cases h

theorem newRow_isSome_congr {sv : Server} {m n : Nat} {given : List (String × Value)}
    {columns : List Column} :
    (sv.newRow m given columns).isSome = (sv.newRow n given columns).isSome := by
  have hcell : ∀ c, (sv.cell m given c).isSome = (sv.cell n given c).isSome := by
    intro c
    unfold Server.cell
    split
    next => rfl
    next => split <;> rfl
  induction columns with
  | nil => rfl
  | cons c cs ih =>
    have hc := hcell c
    unfold Server.newRow
    cases h : sv.cell m given c with
    | none =>
      have h' : sv.cell n given c = none := by simpa [h] using hc
      simp [h']
    | some v =>
      obtain ⟨v', h'⟩ := Option.isSome_iff_exists.mp (hc.symm.trans (by rw [h]; rfl))
      cases hr : sv.newRow m given cs with
      | none =>
        have hr' : sv.newRow n given cs = none := by simpa [hr] using ih
        simp [h', hr']
      | some row =>
        obtain ⟨row', hr'⟩ := Option.isSome_iff_exists.mp (ih.symm.trans (by rw [hr]; rfl))
        simp [h', hr']

theorem refused_insert_congr {db db' : Database} {table : String} {tb tb' : Table}
    {columns : List String} {values : List Term} (h : db table = some tb)
    (h' : db' table = some tb') (hcol : tb.columns = tb'.columns) :
    (Statement.insert table columns values).refused db =
      (Statement.insert table columns values).refused db' := by
  simp [Statement.refused, h, h', Table.column?, hcol]

/-- Two tables with the same columns take the same rows. -/
theorem respond_insert_congr {sv : Server} {db db' : Database} {table : String} {tb tb' : Table}
    {columns : List String} {values : List Term} {params : List Value} (h : db table = some tb)
    (h' : db' table = some tb') (hcol : tb.columns = tb'.columns)
    (hrow : ∃ row, sv.respond db (.insert table columns values) params = .inserted table row) :
    ∃ row, sv.respond db' (.insert table columns values) params = .inserted table row := by
  obtain ⟨row, hrow⟩ := hrow
  unfold Server.respond at hrow ⊢
  rw [← refused_insert_congr h h' hcol]
  split at hrow
  next => cases hrow
  next hr =>
    cases hvs : bindTerms values params with
    | none => simp [h, hvs] at hrow
    | some vs =>
      have hsome : (sv.newRow tb'.nextId (columns.zip vs) tb'.columns).isSome := by
        rw [← hcol, newRow_isSome_congr (n := tb.nextId)]
        cases hn : sv.newRow tb.nextId (columns.zip vs) tb.columns with
        | none => simp [h, hvs, hn] at hrow
        | some row => rfl
      obtain ⟨row', hrow'⟩ := Option.isSome_iff_exists.mp hsome
      exact ⟨row', by simp [h', hvs, hrow']⟩

def Answer.apply (db : Database) : Answer → Database
  | .rows _ => db
  | .created table columns => Function.update db table (some ⟨columns, [], 1⟩)
  | .inserted table row => Function.update db table
      ((db table).map fun tb => { tb with rows := tb.rows ++ [row], nextId := tb.nextId + 1 })
  | .error _ => db

def Answer.table? : Answer → Option String
  | .created table _ => some table
  | .inserted table _ => some table
  | _ => none

def Statement.table? : Statement → Option String
  | .createTable table _ => some table
  | .insert table _ _ => some table
  | _ => none

theorem respond_table? {sv : Server} {db : Database} {st : Statement} {params : List Value}
    {table : String} (h : (sv.respond db st params).table? = some table) :
    st.table? = some table := by
  cases ha : sv.respond db st params with
  | rows n => simp [ha, Answer.table?] at h
  | error e => simp [ha, Answer.table?] at h
  | created t columns =>
    obtain ⟨rfl, _⟩ := respond_created ha
    simpa [ha, Answer.table?, Statement.table?] using h
  | inserted t row =>
    obtain ⟨_, _, _, _, rfl, _⟩ := respond_inserted ha
    simpa [ha, Answer.table?, Statement.table?] using h

/-- The row an answer appends to a table. -/
def Answer.row? (table : String) : Answer → Option Row
  | .inserted t row => if t = table then some row else none
  | _ => none

def Answer.creates (table : String) : Answer → Bool
  | .created t _ => t = table
  | _ => false

theorem apply_frame {db : Database} {a : Answer} {table : String} (h : a.table? ≠ some table) :
    a.apply db table = db table := by
  cases a with
  | rows n => rfl
  | error e => rfl
  | created t columns =>
    have hne : table ≠ t := fun he => h (congrArg some he.symm)
    simp [Answer.apply, Function.update_of_ne hne]
  | inserted t row =>
    have hne : table ≠ t := fun he => h (congrArg some he.symm)
    simp [Answer.apply, Function.update_of_ne hne]

def rowsOf (db : Database) (table : String) : List Row :=
  match db table with
  | none => []
  | some tb => tb.rows

/-- `row` holds in column `name` the server's conversion of `v`. -/
def Server.Stored (sv : Server) (columns : List Column) (row : Row) (name : String) (v : Value) :
    Prop :=
  ∃ c w, columns.find? (fun c => name == c.name) = some c ∧ sv.convert c v = some w ∧
    row.lookup name = some w

theorem newRow_lookup {sv : Server} {nextId : Nat} {given : List (String × Value)}
    {columns : List Column} {row : Row} {name : String} {c : Column}
    (h : sv.newRow nextId given columns = some row)
    (hc : columns.find? (fun c => name == c.name) = some c) :
    ∃ v, sv.cell nextId given c = some v ∧ row.lookup name = some v := by
  induction columns generalizing row with
  | nil => simp at hc
  | cons d ds ih =>
    obtain ⟨v, hv, h⟩ := Option.bind_eq_some_iff.mp h
    obtain ⟨tail, ht, h⟩ := Option.bind_eq_some_iff.mp h
    cases Option.some.inj h
    by_cases hn : name = d.name
    · subst hn
      have hd : d = c := by simpa using hc
      subst hd
      exact ⟨v, hv, by simp⟩
    · rw [List.find?_cons_of_neg (by simpa using hn)] at hc
      obtain ⟨w, hw, hl⟩ := ih ht hc
      exact ⟨w, hw, by simpa [List.lookup_cons, beq_false_of_ne hn] using hl⟩

/-- An inserted row holds every column named in the statement. -/
theorem newRow_stored {sv : Server} {nextId : Nat} {given : List (String × Value)}
    {columns : List Column} {row : Row} {name : String} {v : Value}
    (h : sv.newRow nextId given columns = some row)
    (hc : (columns.find? fun c => name == c.name).isSome)
    (hg : given.lookup name = some v) : sv.Stored columns row name v := by
  obtain ⟨c, hc⟩ := Option.isSome_iff_exists.mp hc
  obtain ⟨w, hw, hl⟩ := newRow_lookup h hc
  have hn : c.name = name := by
    have h := List.find?_some hc
    exact (beq_iff_eq.mp h).symm
  rw [Server.cell, hn, hg] at hw
  exact ⟨c, w, hc, hw, hl⟩

end Sql
