import ThreatScanner.Store.Rules

/-!
# Records in the child tables

A record of a report is stored in the columns of a row and read back from them: the list of
addresses as JSON text, the flags as the integers 0 and 1, the other fields as they are. A record
whose fields have the types of their columns reads back as its restriction to these columns
(`recordJson_of_stores`).
-/

namespace ThreatScanner.Store

open Relational

variable {p : Platform} {now : Value} {parent : TableName} {child : Child} {scanId : Int}
variable {entries : List (String × Json)} {column : StoreColumn} {row : StoreRow}

/-- `json.loads` gives back the value that was dumped. -/
def RoundTrips (p : Platform) (v : Json) : Prop := p.loads (p.dumps v) = some v

/-- Null, or a value of the type of the column. -/
def Typed : Affinity → Json → Prop
  | _, .null => True
  | .text, .str _ | .integer, .int _ | .real, .real _ => True
  | _, _ => False

/-- The column stores the value as it is: a text column a string, an integer column an integer, a
real number that is none, and a text that does not read as a number. -/
def Unconverted (conv : Conversions) : Affinity → Json → Prop
  | _, .null | .text, .str _ | .integer, .int _ => True
  | .integer, .real q => ¬(q.den = 1 ∧ Fits q.num)
  | .integer, .str s => conv.number? s = none
  | _, _ => False

/-- The field of a record for a column: addresses are a list of strings, flags are booleans, and
any other field, null where it is missing, has the type of its column. -/
def TypedField (column : StoreColumn) (field : Option Json) : Prop :=
  match column.name with
  | .ips => ∃ ips : List String, field = some (.arr (ips.map .str))
  | .http | .https => ∃ b, field = some (.bool b)
  | _ => Typed column.affinity (field.getD .null)

def TypedRecord (child : Child) (entries : List (String × Json)) : Prop :=
  ∀ column ∈ child.fields, TypedField column (entries.lookup column.name.text)

/-- The record restricted to the stored columns. -/
def restrict (child : Child) (entries : List (String × Json)) : Json :=
  .obj (child.fields.map fun column =>
    (column.name.text, (entries.lookup column.name.text).getD .null))

/-! ## The cells of a row -/

theorem Child.names_nodup (child : Child) : (child.fields.map (·.name)).Nodup := by
  cases child <;> decide

theorem Child.columns_nodup (child : Child) : ((child.columns parent).map (·.name)).Nodup := by
  show (ColumnName.scanId :: (child.fields ++ [createdAtColumn]).map (·.name)).Nodup
  cases child <;> decide

theorem Child.field_ne_scanId (child : Child) : ∀ column ∈ child.fields,
    column.name ≠ .scanId := by
  cases child <;> decide

theorem Stores.scanId_eq {item : Json}
    (h : Stores p now child (child.columns parent) scanId item row) :
    row.cells .scanId = .integer scanId := by
  obtain ⟨values, hvalues, hcells⟩ := h
  simp only [recordValues, bind_eq_ok] at hvalues
  obtain ⟨fields, -, hret⟩ := hvalues
  cases hret
  rw [hcells]
  exact cell_eq child.columns_nodup (show scanIdColumn parent ∈ child.columns parent from
    List.mem_cons_self) List.lookup_cons_self

theorem scanId_of_stores {items : List Json} {new : List StoreRow}
    (h : List.Forall₂ (Stores p now child (child.columns parent) scanId) items new) :
    ∀ row ∈ new, row.cells .scanId = .integer scanId := by
  induction h with
  | nil => nofun
  | cons hrow _ ih => exact List.forall_mem_cons.mpr ⟨hrow.scanId_eq, ih⟩

theorem Stores.cell_eq {item : Json}
    (h : Stores p now child (child.columns parent) scanId item row)
    (hcolumn : column ∈ child.fields) : ∃ v, fieldValue p item column.name = .ok v ∧
      row.cells column.name = column.affinity.apply p.conv v := by
  obtain ⟨values, hvalues, hcells⟩ := h
  simp only [recordValues, bind_eq_ok] at hvalues
  obtain ⟨fields, hfields, hret⟩ := hvalues
  cases hret
  obtain ⟨hfst, hall⟩ := mapM_pair_eq_ok.mp hfields
  have hname : column.name ∈ fields.map Prod.fst := by
    rw [hfst]
    exact List.mem_map_of_mem hcolumn
  obtain ⟨⟨c, v⟩, hmem, hc⟩ := List.mem_map.mp hname
  cases hc
  have hlookup := Dict.lookup_eq_some_of_mem (by rw [hfst]; exact child.names_nodup) hmem
  have hne : (column.name == ColumnName.scanId) = false :=
    beq_eq_false_iff_ne.mpr (child.field_ne_scanId column hcolumn)
  refine ⟨v, hall _ hmem, ?_⟩
  rw [hcells]
  refine Relational.cell_eq child.columns_nodup ?_ ?_
  · exact List.mem_cons_of_mem _ (List.mem_append_left _ hcolumn)
  · rw [List.lookup_cons, hne]
    exact hlookup

/-! ## Reading back -/

theorem fromValue_apply {conv : Conversions} {a : Affinity} {v : Json} {w : Value}
    (h : Typed a v) (hbind : bindParam v = .ok w) : fromValue (a.apply conv w) = v := by
  cases v with
  | null => cases hbind; cases a <;> rfl
  | int n =>
    obtain ⟨-, rfl⟩ := bindParam_int.mp hbind
    cases a <;> first | rfl | exact h.elim
  | real q => cases hbind; cases a <;> first | rfl | exact h.elim
  | str s => cases hbind; cases a <;> first | rfl | exact h.elim
  | _ => cases a <;> exact h.elim

theorem fromValue_of_unconverted {conv : Conversions} {a : Affinity} {v : Json} {w : Value}
    (h : Unconverted conv a v) (hbind : bindParam v = .ok w) : fromValue (a.apply conv w) = v := by
  cases v with
  | null => cases hbind; cases a <;> rfl
  | int n =>
    obtain ⟨-, rfl⟩ := bindParam_int.mp hbind
    cases a <;> first | rfl | exact h.elim
  | real q =>
    cases hbind
    cases a with
    | integer => rw [Affinity.apply, integral, if_neg h]; rfl
    | _ => exact h.elim
  | str s =>
    cases hbind
    cases a with
    | text => rfl
    | integer => rw [Affinity.apply, show conv.number? s = none from h]; rfl
    | _ => exact h.elim
  | _ => cases a <;> exact h.elim

/-- The columns of the addresses and the flags. -/
theorem Child.special_affinity (child : Child) : ∀ column ∈ child.fields,
    (column.name = .ips → column.affinity = .text) ∧
      (column.name = .http ∨ column.name = .https → column.affinity = .integer) := by
  cases child <;> decide

theorem fieldJson_ips {ips : Json} (hempty : p.loads "" = none) (hips : RoundTrips p ips)
    (hcell : row.cells .ips = .text (p.dumps ips)) : fieldJson p row .ips = ips := by
  have hne : p.dumps ips ≠ "" := by
    intro h
    rw [RoundTrips, h, hempty] at hips
    cases hips
  rw [fieldJson, hcell]
  simp only [if_neg hne]
  rw [hips, Option.getD_some]

theorem fieldJson_of_cell {v : Value} (hempty : p.loads "" = none)
    (hips : ∀ ips, entries.lookup "ips" = some ips → RoundTrips p ips)
    (hcolumn : column ∈ child.fields)
    (htyped : TypedField column (entries.lookup column.name.text))
    (hv : fieldValue p (.obj entries) column.name = .ok v)
    (hcell : row.cells column.name = column.affinity.apply p.conv v) :
    fieldJson p row column.name = (entries.lookup column.name.text).getD .null := by
  obtain ⟨htext, hinteger⟩ := child.special_affinity column hcolumn
  obtain ⟨name, affinity⟩ := column
  cases name with
  | ips =>
    obtain ⟨ips, hfield⟩ := htyped
    obtain rfl := htext rfl
    simp only [ColumnName.text] at hfield
    simp only [fieldValue, Json.get, ColumnName.text, hfield] at hv
    cases hv
    simp only [ColumnName.text, hfield]
    exact fieldJson_ips hempty (hips _ hfield) hcell
  | http | https =>
    obtain ⟨b, hfield⟩ := htyped
    obtain rfl := hinteger (by simp)
    simp only [fieldValue, Json.get, hfield] at hv
    cases hv
    simp only [hfield, fieldJson, hcell]
    cases b <;> rfl
  | _ =>
    simp only [fieldValue, Json.get, python, Except.mapError, bind, Except.bind] at hv
    simp only [fieldJson, hcell]
    exact fromValue_apply htyped hv

/-- A stored record reads back as its restriction to the stored columns. -/
theorem recordJson_of_stores (hempty : p.loads "" = none)
    (hips : ∀ ips, entries.lookup "ips" = some ips → RoundTrips p ips)
    (htyped : TypedRecord child entries)
    (h : Stores p now child (child.columns parent) scanId (.obj entries) row) :
    recordJson p child row = restrict child entries := by
  rw [recordJson, restrict]
  refine congrArg Json.obj (List.map_congr_left fun column hcolumn => ?_)
  obtain ⟨v, hv, hcell⟩ := h.cell_eq hcolumn
  rw [fieldJson_of_cell hempty hips hcolumn (htyped column hcolumn) hv hcell]

theorem map_recordJson_of_stores {records : List (List (String × Json))} {new : List StoreRow}
    (hempty : p.loads "" = none)
    (hips : ∀ entries ∈ records, ∀ ips, entries.lookup "ips" = some ips → RoundTrips p ips)
    (htyped : ∀ entries ∈ records, TypedRecord child entries)
    (h : List.Forall₂ (Stores p now child (child.columns parent) scanId) (records.map .obj) new) :
    new.map (recordJson p child) = records.map (restrict child) := by
  induction records generalizing new with
  | nil => cases h; rfl
  | cons entries records ih =>
    cases h with
    | cons hrow hnew =>
      rw [List.map_cons, List.map_cons, ih (fun e he => hips e (List.mem_cons_of_mem _ he))
        (fun e he => htyped e (List.mem_cons_of_mem _ he)) hnew,
        recordJson_of_stores hempty (hips entries List.mem_cons_self)
          (htyped entries List.mem_cons_self) hrow]

end ThreatScanner.Store
