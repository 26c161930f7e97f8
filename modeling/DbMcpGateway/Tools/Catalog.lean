import DbMcpGateway.Data.Contiguous
import DbMcpGateway.Tools.QueryTools

/-!
# The tables of a catalog answer

`assemble_tables` (tools/describe_schema.rs:241) groups the rows of
`information_schema.columns`. It compares each row with the last table only, so it relies on
the order of the rows: the query sorts them by table.

Whatever the order, no column is lost, added or moved: the columns of the tables, one table
after the other, are the rows. If the rows of each table stand together, each table is there
once, and the tables are in the order of their first rows.

Results:

* `assembleTables_eq`: well-formed rows are assembled.
* `entries_assembled`, `names_assembled`: the invariants of the loop.
* `assembleTables_spec`: the tables of well-formed rows.
-/

namespace DbMcpGateway.Tools.DescribeSchema

/-! ## Specification -/

/-- A row of the catalog: four texts, a nullable flag of any form, and perhaps more cells. -/
structure CatalogRow where
  schema : String
  table : String
  column : String
  dataType : String
  isNullable : Json
  rest : List Json

namespace CatalogRow

/-- The row as the database returns it. -/
def cells (r : CatalogRow) : List Json :=
  .str r.schema :: .str r.table :: .str r.column :: .str r.dataType :: r.isNullable :: r.rest

/-- Only the text `YES` says that a column may be null. -/
def nullable (r : CatalogRow) : Bool :=
  match r.isNullable with
  | .str s => s == "YES"
  | _ => false

def view (r : CatalogRow) : ColumnView :=
  { name := r.column, dataType := r.dataType, nullable := r.nullable }

def key (r : CatalogRow) : String × String := (r.schema, r.table)

def entry (r : CatalogRow) : (String × String) × ColumnView := (r.key, r.view)

end CatalogRow

namespace TableView

def key (t : TableView) : String × String := (t.schema, t.name)

def entries (t : TableView) : List ((String × String) × ColumnView) :=
  t.columns.map fun c => (t.key, c)

end TableView

/-! ## One row -/

/-- The loop body for a well-formed row. -/
def pushRow (tables : List TableView) (r : CatalogRow) : List TableView :=
  pushColumn tables r.schema r.table r.view

def assembled (rows : List CatalogRow) : List TableView := rows.foldl pushRow []

theorem assembled_concat (rows : List CatalogRow) (r : CatalogRow) :
    assembled (rows ++ [r]) = pushRow (assembled rows) r :=
  List.foldl_concat pushRow [] r rows

/-- A row goes to the last table, if it is of that table, or it starts a new one. -/
theorem pushRow_cases (tables : List TableView) (r : CatalogRow) :
    (∃ init t, tables = init ++ [t] ∧ t.key = r.key ∧
      pushRow tables r = init ++ [{ t with columns := t.columns ++ [r.view] }]) ∨
    ((tables.map TableView.key).getLast? ≠ some r.key ∧
      pushRow tables r = tables ++ [⟨r.schema, r.table, [r.view]⟩]) := by
  rcases List.eq_nil_or_concat' tables with rfl | ⟨init, t, rfl⟩
  · exact .inr ⟨by simp, rfl⟩
  · by_cases hkey : t.key = r.key
    · obtain ⟨hschema, hname⟩ := Prod.mk.inj hkey
      refine .inl ⟨init, t, rfl, hkey, ?_⟩
      rw [pushRow, pushColumn, List.getLast?_concat]
      simp only [if_pos (And.intro hschema hname), List.dropLast_concat]
    · have hne : ¬ (t.schema = r.schema ∧ t.name = r.table) :=
        fun h => hkey (Prod.ext h.1 h.2)
      refine .inr ⟨by simpa using hkey, ?_⟩
      rw [pushRow, pushColumn, List.getLast?_concat]
      simp only [if_neg hne]

theorem entries_pushRow (tables : List TableView) (r : CatalogRow) :
    (pushRow tables r).flatMap TableView.entries =
      tables.flatMap TableView.entries ++ [r.entry] := by
  obtain ⟨init, t, rfl, hkey, hpush⟩ | ⟨-, hpush⟩ := pushRow_cases tables r
  · have hsame : ({ t with columns := t.columns ++ [r.view] } : TableView).key = r.key := hkey
    rw [hpush, List.flatMap_append, List.flatMap_append, List.append_assoc]
    simp [TableView.entries, hsame, hkey, CatalogRow.entry]
  · rw [hpush, List.flatMap_append]
    rfl

theorem getLast?_pushRow (tables : List TableView) (r : CatalogRow) :
    ((pushRow tables r).map TableView.key).getLast? = some r.key := by
  obtain ⟨init, t, rfl, hkey, hpush⟩ | ⟨-, hpush⟩ := pushRow_cases tables r
  · rw [hpush, List.map_append, List.map_singleton, List.getLast?_concat, ← hkey]
    rfl
  · rw [hpush, List.map_append, List.map_singleton, List.getLast?_concat]
    rfl

variable {tables : List TableView} {r : CatalogRow}

theorem names_pushRow_of_last (h : (tables.map TableView.key).getLast? = some r.key) :
    (pushRow tables r).map TableView.key = tables.map TableView.key := by
  obtain ⟨init, t, rfl, -, hpush⟩ | ⟨hne, -⟩ := pushRow_cases tables r
  · rw [hpush, List.map_append, List.map_append]
    rfl
  · exact absurd h hne

theorem names_pushRow_of_not_mem (h : r.key ∉ tables.map TableView.key) :
    (pushRow tables r).map TableView.key = tables.map TableView.key ++ [r.key] := by
  obtain ⟨init, t, rfl, hkey, -⟩ | ⟨-, hpush⟩ := pushRow_cases tables r
  · exact absurd (by simp [← hkey]) h
  · rw [hpush, List.map_append]
    rfl

/-! ## All rows -/

/-- Well-formed rows never fail. -/
theorem assembleTables_eq (rows : List CatalogRow) :
    assembleTables (rows.map CatalogRow.cells) = some (assembled rows) := by
  rw [assembleTables, List.foldlM_map, assembled]
  exact List.foldlM_pure

theorem entries_assembled (rows : List CatalogRow) :
    (assembled rows).flatMap TableView.entries = rows.map CatalogRow.entry := by
  induction rows using List.reverseRecOn with
  | nil => rfl
  | append_singleton rows r ih =>
    rw [assembled_concat, entries_pushRow, ih, List.map_append, List.map_singleton]

theorem getLast?_assembled (rows : List CatalogRow) :
    ((assembled rows).map TableView.key).getLast? = (rows.map CatalogRow.key).getLast? := by
  rcases List.eq_nil_or_concat' rows with rfl | ⟨rows, r, rfl⟩
  · rfl
  · rw [assembled_concat, getLast?_pushRow, List.map_append, List.map_singleton,
      List.getLast?_concat]

theorem names_assembled {rows : List CatalogRow} (h : Contiguous (rows.map CatalogRow.key)) :
    (assembled rows).map TableView.key = (rows.map CatalogRow.key).eraseDups := by
  induction rows using List.reverseRecOn with
  | nil => rfl
  | append_singleton rows r ih =>
    rw [List.map_append, List.map_singleton] at h ⊢
    have hnames := ih h.of_append
    rw [assembled_concat, eraseDups_concat]
    split_ifs with hmem
    · -- the table was seen before, so the row before this one is of it
      rw [← hnames]
      exact names_pushRow_of_last ((getLast?_assembled rows).trans (h.getLast?_of_mem hmem))
    · rw [← hnames]
      exact names_pushRow_of_not_mem fun hin =>
        hmem (List.mem_eraseDups.mp (hnames ▸ hin))

/-- The tables of well-formed rows: their columns are the rows in their order, and if the rows
    of each table stand together, the tables are distinct and in the order of first
    appearance. -/
theorem assembleTables_spec (rows : List CatalogRow) :
    ∃ tables, assembleTables (rows.map CatalogRow.cells) = some tables ∧
      tables.flatMap TableView.entries = rows.map CatalogRow.entry ∧
      (Contiguous (rows.map CatalogRow.key) →
        (tables.map TableView.key).Nodup ∧
        tables.map TableView.key = (rows.map CatalogRow.key).eraseDups) := by
  refine ⟨assembled rows, assembleTables_eq rows, entries_assembled rows, ?_⟩
  intro h
  have hnames := names_assembled h
  exact ⟨hnames ▸ nodup_eraseDups _, hnames⟩

/-- Three rows of two tables, sorted by table. -/
theorem assembleTables_spec_sorted :
    ∃ tables, assembleTables [[.str "s", .str "a", .str "x", .str "int", .str "NO"],
        [.str "s", .str "a", .str "y", .str "text", .str "YES"],
        [.str "s", .str "b", .str "z", .str "int", .null]] = some tables ∧
      tables.map TableView.key = [("s", "a"), ("s", "b")] := by
  obtain ⟨tables, htables, -, hnames⟩ := assembleTables_spec
    [⟨"s", "a", "x", "int", .str "NO", []⟩, ⟨"s", "a", "y", "text", .str "YES", []⟩,
      ⟨"s", "b", "z", "int", .null, []⟩]
  have hsorted : Contiguous [("s", "a"), ("s", "a"), ("s", "b")] :=
    .of_pairwise (r := fun a b => a.1 = b.1 ∧ a.2 ≤ b.2)
      (fun _ _ h h' => Prod.ext h.1 (String.le_antisymm h.2 h'.2)) (by decide)
  exact ⟨tables, htables, (hnames hsorted).2.trans (by decide)⟩

/-- Rows of a table that do not stand together give the table twice. -/
example : assembleTables [[.str "s", .str "a", .str "x", .str "int", .str "NO"],
      [.str "s", .str "b", .str "y", .str "int", .str "NO"],
      [.str "s", .str "a", .str "z", .str "int", .str "YES"]] =
    some [⟨"s", "a", [⟨"x", "int", false⟩]⟩, ⟨"s", "b", [⟨"y", "int", false⟩]⟩,
      ⟨"s", "a", [⟨"z", "int", true⟩]⟩] := by decide

end DbMcpGateway.Tools.DescribeSchema
