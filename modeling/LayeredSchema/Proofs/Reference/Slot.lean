import LayeredSchema.Reference.Slot
import Mathlib.Data.List.Nodup

/-!
# Slots are listed once

`tableSlots` and `columnSlots` list every place of a definition once, whatever
names repeat: a slot knows the schema and the table that it is in. A walk that
strikes the places it has met off such a list meets none of them twice.
-/

namespace LayeredSchema

theorem TableSlot.nodup_columns {d : Definition} (t : TableSlot d) : t.columns.Nodup := by
  unfold columns
  refine (List.nodup_finRange _).map ?_
  intro c c' hcc
  rw [ColumnSlot.mk.injEq] at hcc
  exact eq_of_heq hcc.2

namespace Definition

theorem nodup_tableSlotsIn (d : Definition) (s : Fin d.schemas.length) :
    (d.tableSlotsIn s).Nodup := by
  unfold tableSlotsIn
  refine (List.nodup_finRange _).map ?_
  intro t u htu
  rw [TableSlot.mk.injEq] at htu
  exact eq_of_heq htu.2

/-- The discovery order lists no table twice, whatever names repeat. -/
theorem nodup_tableSlots (d : Definition) : d.tableSlots.Nodup := by
  unfold tableSlots
  rw [List.nodup_flatMap]
  refine ⟨fun s _ => nodup_tableSlotsIn d s, ?_⟩
  refine (List.nodup_finRange _).imp ?_
  intro s s' hne t ht ht'
  -- a slot knows the schema that it is in
  obtain ⟨i, -, rfl⟩ := List.mem_map.mp ht
  obtain ⟨j, -, hj⟩ := List.mem_map.mp ht'
  rw [TableSlot.mk.injEq] at hj
  exact hne hj.1.symm

theorem nodup_columnSlots (d : Definition) : d.columnSlots.Nodup := by
  unfold columnSlots
  rw [List.nodup_flatMap]
  refine ⟨fun t _ => t.nodup_columns, ?_⟩
  refine (nodup_tableSlots d).imp ?_
  intro t t' hne c hc hc'
  obtain ⟨i, -, rfl⟩ := List.mem_map.mp hc
  obtain ⟨j, -, hj⟩ := List.mem_map.mp hc'
  rw [ColumnSlot.mk.injEq] at hj
  exact hne hj.1.symm

end Definition

end LayeredSchema
