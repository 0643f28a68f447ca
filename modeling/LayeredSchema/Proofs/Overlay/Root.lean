import LayeredSchema.Proofs.Assembly
import LayeredSchema.Proofs.Overlay.Frame
import LayeredSchema.Proofs.Overlay.Independent
import LayeredSchema.Proofs.Overlay.LastWriter

/-!
# The root of a stack

What a stack of documents says of the database as a whole is put together in four ways. The
dialect and the well-known roles are those of the last document that declares any. A setting is
that of the last document that lists it. Custom roles and snippets are gathered (`gathered`): all
of the first document that has any, repeated or not, and of the documents after it what
resembles nothing before it.

`Root` says so in terms of the documents alone, and `stack_root` that it is so for every stack.
The proof is by induction on the documents from the first to the last (`Root.step`). The part of
it that is not about one document more is that a loop which compares with what it has kept finds
what it would find among all that went before (`appendNew_eq_append_newcomers`).
-/

namespace LayeredSchema

/-! ## What is gathered -/

section Gathered

variable {α : Type} {same : α → α → Bool}

/-- What of a list resembles nothing before it, neither in the list nor in what precedes it. -/
def newcomers (same : α → α → Bool) (before list : List α) : List α :=
  (Siblings.withEarlier before list).filterMap fun (earlier, a) =>
    if earlier.any fun b => same b a then none else some a

/-- The first list, and of the lists after it what resembles nothing before it. -/
def gathered (same : α → α → Bool) : List (List α) → List α
  | [] => []
  | first :: later => first ++ newcomers same first later.flatten

theorem newcomers_cons (before : List α) (a : α) (list : List α) :
    newcomers same before (a :: list) =
      if before.any fun b => same b a then newcomers same (a :: before) list
      else a :: newcomers same (a :: before) list := by
  unfold newcomers
  rw [Siblings.withEarlier]
  split
  next h => exact List.filterMap_cons_none (if_pos h)
  next h => exact List.filterMap_cons_some (if_neg h)

/-- To compare with what was kept is to compare with all that went before, if what resembles
something kept resembles all that this resembles. -/
theorem appendNew_eq_append_newcomers (htrans : ∀ a b c, same a b → same b c → same a c)
    {kept before : List α}
    (hfinds : ∀ a, (kept.any fun b => same b a) = before.any fun b => same b a)
    (layer : List α) : appendNew same kept layer = kept ++ newcomers same before layer := by
  induction layer generalizing kept before with
  | nil => exact (List.append_nil kept).symm
  | cons a layer ih =>
    rw [appendNew_cons, newcomers_cons, hfinds a]
    by_cases ha : before.any fun b => same b a
    · rw [if_pos ha, if_pos ha]
      refine ih fun c => ?_
      -- what resembles `a` resembles what was kept in its place
      rw [List.any_cons, hfinds c, eq_comm, Bool.or_eq_right_iff_imp]
      intro hac
      obtain ⟨b, hb, hba⟩ := List.any_eq_true.mp ha
      exact List.any_eq_true.mpr ⟨b, hb, htrans b a c hba hac⟩
    · rw [if_neg ha, if_neg ha, ih, List.append_assoc, List.singleton_append]
      intro c
      rw [List.any_append, List.any_cons, List.any_cons, List.any_nil, Bool.or_false, hfinds c,
        Bool.or_comm]

theorem gathered_cons (htrans : ∀ a b c, same a b → same b c → same a c) (first : List α)
    (later : List (List α)) :
    gathered same (first :: later) = appendNew same first later.flatten :=
  (appendNew_eq_append_newcomers htrans (fun _ => rfl) _).symm

theorem gathered_concat (htrans : ∀ a b c, same a b → same b c → same a c)
    {lists : List (List α)} (hne : lists ≠ []) (layer : List α) :
    gathered same (lists ++ [layer]) = appendNew same (gathered same lists) layer := by
  cases lists with
  | nil => exact absurd rfl hne
  | cons first later =>
    rw [List.cons_append, gathered_cons htrans, gathered_cons htrans, List.flatten_concat,
      appendNew_append]

theorem gathered_singleton (list : List α) : gathered same [list] = list := List.append_nil list

end Gathered

namespace Definition

/-! ## One document more -/

theorem dialect_overlay (base layer : Definition) :
    (Overlay.overlay base layer).dialect = layer.dialect.or base.dialect := by
  obtain ⟨database, _, _, _⟩ := base
  obtain ⟨layered, _, _, _⟩ := layer
  cases layered with
  | none => rfl
  | some layered =>
    obtain ⟨dialect, _, _⟩ := layered
    cases dialect <;> cases database <;> rfl

/-- What the documents of a stack say of the database as a whole, and what comes of them. -/
structure Root (documents : List Definition) (result : Definition) : Prop where
  /-- The dialect is that of the last document that declares one. -/
  dialect : result.dialect = (documents.filterMap Definition.dialect).getLast?
  /-- The well-known roles are those of the last document with roles; custom roles are
  gathered from all of them. -/
  roles : result.roles = (documents.filterMap Definition.roles).getLast?.map fun last =>
    { last with
      custom := gathered Name.same ((documents.filterMap Definition.roles).map Roles.custom) }
  /-- A setting that no document lists twice is there once if it is listed, as the last document
  that lists it has it. -/
  settings : ∀ name,
    (∀ d ∈ documents, (d.settings.filter fun s => Name.same s.name name).length ≤ 1) →
      (result.settings.filter fun s => Name.same s.name name) =
        (documents.filterMap fun d => Siblings.named? d.settings name).getLast?.toList
  /-- Snippets are gathered from all documents, and compared by their text alone. -/
  snippets : result.snippets =
    gathered (fun a b => a.text == b.text) (documents.map Definition.snippets)

section Step

variable {documents : List Definition} {d layer : Definition}

/-- A setting that is listed no more than once is what its name finds. -/
theorem filter_settings_eq_named? {settings : List Setting} {name : String}
    (h : (settings.filter fun s => Name.same s.name name).length ≤ 1) :
    (settings.filter fun s => Name.same s.name name) = (Siblings.named? settings name).toList := by
  show _ = (settings.find? fun s => Name.same s.name name).toList
  rw [← List.head?_filter]
  generalize (settings.filter fun s => Name.same s.name name) = listed at h
  rcases listed with _ | ⟨first, _ | ⟨second, rest⟩⟩
  · rfl
  · rfl
  · simp at h

/-- Settings of one name with a layer over them that lists the name no more than once. -/
theorem filter_settings_overlay {base layer : List Setting} {name : String}
    {previous : Option Setting}
    (hbase : (base.filter fun s => Name.same s.name name) = previous.toList)
    (hlayer : (layer.filter fun s => Name.same s.name name).length ≤ 1) :
    ((Siblings.overlay base layer).filter fun s => Name.same s.name name) =
      ((Siblings.named? layer name).or previous).toList := by
  have hsame : ∀ a b : Setting, Identity.sameAs a b →
      Name.same a.name name = Name.same b.name name := by
    intro a b hab
    have hfold := sameAs_iff_name.mp hab
    exact congrArg (· == Name.fold name) hfold
  rw [Siblings.filter_overlay hsame, hbase, filter_settings_eq_named? hlayer]
  cases hlast : Siblings.named? layer name with
  | none => exact Siblings.overlay_empty _
  | some last =>
    cases previous with
    | none => exact Siblings.overlay_nil _
    | some previous =>
      -- both have the name, so that the later one takes the place of the earlier one
      have hmem : previous ∈ base.filter fun s => Name.same s.name name := by
        rw [hbase]
        exact List.mem_singleton_self previous
      have hname : Name.same previous.name name := (List.mem_filter.mp hmem).2
      have hname' : Name.same last.name name :=
        List.find?_some (p := fun s : Setting => Name.same s.name name) hlast
      have hboth : Identity.sameAs previous last :=
        sameAs_iff_name.mpr ((Name.same_iff.mp hname).trans (Name.same_iff.mp hname').symm)
      exact Siblings.overlay_singleton hboth

theorem sameAs_snippet_eq : (Identity.sameAs : Snippet → Snippet → Bool) =
    fun a b => a.text == b.text := by
  funext a b
  rw [Bool.eq_iff_iff, sameAs_snippet_iff, beq_iff_eq]

theorem root_singleton (d : Definition) : Root [d] d where
  dialect := by
    rw [← List.nil_append [d], getLast?_filterMap_concat]
    exact Option.or_none.symm
  roles := by
    cases hroles : d.roles with
    | none => rw [List.filterMap_cons_none hroles]; rfl
    | some only =>
      rw [List.filterMap_cons_some hroles, List.filterMap_nil, List.map_singleton,
        gathered_singleton]
      rfl
  settings name h := by
    rw [filter_settings_eq_named? (h d List.mem_cons_self), ← List.nil_append [d],
      getLast?_filterMap_concat]
    exact congrArg Option.toList Option.or_none.symm
  snippets := (gathered_singleton d.snippets).symm

theorem Root.step (h : Root documents d) (hne : documents ≠ []) :
    Root (documents ++ [layer]) (Overlay.overlay d layer) where
  dialect := by rw [dialect_overlay, h.dialect, getLast?_filterMap_concat]
  roles := by
    rw [roles_overlay, h.roles, filterMap_concat]
    cases layer.roles with
    | none =>
      rw [Option.toList_none, List.append_nil]
      cases (documents.filterMap Definition.roles).getLast? <;> rfl
    | some last =>
      rw [Option.toList_some]
      by_cases hassigned : documents.filterMap Definition.roles = []
      · rw [hassigned, List.nil_append, List.map_singleton, gathered_singleton]
        rfl
      · have htrans : ∀ a b c : String, Name.same a b → Name.same b c → Name.same a c :=
          fun _ _ _ => Name.same_trans
        rw [List.getLast?_eq_some_getLast hassigned, List.getLast?_concat, List.map_append,
          List.map_singleton, gathered_concat htrans (by simpa using hassigned)]
        rfl
  settings name hlisted := by
    obtain ⟨hdocuments, hlayer⟩ := List.forall_mem_append.mp hlisted
    rw [settings_overlay, getLast?_filterMap_concat]
    exact filter_settings_overlay (h.settings name hdocuments)
      (hlayer layer (List.mem_singleton_self layer))
  snippets := by
    have htrans : ∀ a b c : Snippet, a.text == b.text → b.text == c.text → a.text == c.text := by
      intro a b c hab hbc
      exact beq_iff_eq.mpr ((beq_iff_eq.mp hab).trans (beq_iff_eq.mp hbc))
    rw [List.map_append, List.map_singleton, gathered_concat htrans (by simpa using hne),
      ← h.snippets, ← sameAs_snippet_eq]
    rfl

end Step

/-- **The root of a stack.** What comes of the documents is their root. A definition that is
assembled from them has no other dialect than it, but for the one to fall back on if no document
declares any. -/
theorem stack_root (documents : List Definition) : Root documents (stack documents) ∧
    ∀ options result, assemble options documents = .ok result →
      result.dialect =
        (documents.filterMap Definition.dialect).getLast?.or options.defaultDialect := by
  have hroot : Root documents (stack documents) := by
    induction documents using List.reverseRecOn with
    | nil => exact ⟨rfl, rfl, fun _ _ => rfl, rfl⟩
    | append_singleton documents layer ih =>
      by_cases hne : documents = []
      · subst hne
        exact root_singleton layer
      · rw [stack_concat hne]
        exact ih.step hne
  refine ⟨hroot, fun options result hresult => ?_⟩
  obtain ⟨-, -, rfl⟩ := assemble_eq_ok_iff.mp hresult
  rw [(defaulted_withDefaultDialect options.defaultDialect (stack documents)).dialect,
    hroot.dialect]

/-- Three documents, the second of which says nothing. The first one repeats a role of its own,
and the last one repeats a role, a setting and a snippet of the first. -/
def ledgers : List Definition :=
  [{ database := some
       { dialect := some .pgsql8
         roles := some { owner := "ann", readOnly := "ann_ro", custom := ["audit", "AUDIT"] }
         settings := [⟨"work_mem", "4MB"⟩] }
     snippets := [{ author := "ann", text := "SELECT 1" }] },
   {},
   { database := some
       { roles := some { owner := "bob", custom := ["Audit", "backup", "BACKUP"] }
         settings := [⟨"WORK_MEM", "8MB"⟩] }
     snippets := [{ author := "bob", text := "SELECT 1" }, { author := "bob", text := "SELECT 2" },
       { author := "cid", text := "SELECT 2" }] }]

theorem stack_root_ledgers :
    (∃ result, assemble { defaultDialect := some .mysql5 } ledgers = .ok result ∧
      result.dialect = some .pgsql8) ∧
    (stack ledgers).roles =
      some { owner := "bob", custom := ["audit", "AUDIT", "backup"] } ∧
    ((stack ledgers).settings.filter fun s => Name.same s.name "work_mem") =
      [⟨"WORK_MEM", "8MB"⟩] ∧
    (stack ledgers).snippets =
      [{ author := "ann", text := "SELECT 1" }, { author := "bob", text := "SELECT 2" }] := by
  obtain ⟨hroot, hassembled⟩ := stack_root ledgers
  refine ⟨?_, ?_, ?_, ?_⟩
  · have hpasses : Passes { defaultDialect := some .mysql5 } ledgers := by
      intro i hi
      match i, hi with
      | 0, _ => rfl
      | 1, _ => rfl
      | 2, _ => rfl
    have hok := assemble_eq_ok_iff.mpr ⟨List.cons_ne_nil _ _, hpasses, rfl⟩
    exact ⟨_, hok, hassembled _ _ hok⟩
  · rw [hroot.roles]
    decide +kernel
  · rw [hroot.settings "work_mem" (by decide +kernel)]
    decide +kernel
  · rw [hroot.snippets]
    decide +kernel

end Definition

end LayeredSchema
