import LayeredSchema.Proofs.Encoding.Loosening
import LayeredSchema.Proofs.Traversal
import Mathlib.Logic.Relation

/-!
# Faithful encodings

An encoding is *faithful* if what is written is read back, and if a step away from a document
that is read does not change what is read (`Faithful`). Any number of steps then changes
nothing either (`Faithful.decode_of_looser`).

A list of fields of faithful types restores what they are taken from (`Fields.Restores`),
which is said for each way to declare a field once (`Fields.Restores.more`) and then found by
instances. For a record type two things are left to say (`Definite.record`): no key is
declared twice, and the fields make up the record that they are taken from.
-/

namespace LayeredSchema

open Relation (ReflTransGen)

/-- A type of which documents are read as what they were written from, or loosened from. -/
class Faithful (α : Type) [Coded α] : Prop where
  decode_encode (a : α) : decode (encode a) = .ok a
  decode_of_loosens {x y : Datum} {a : α} (hx : decode x = .ok a)
    (h : Loosens (Coded.shape α) x y) : decode y = .ok a

/-- A faithful type of which no value is written as null. -/
class Definite (α : Type) [Coded α] : Prop extends Faithful α where
  encode_ne_null (a : α) : encode a ≠ .null

/-- A vocabulary of which every member is read from the word that it is written as. -/
class Legible (α : Type) [Keyword α] : Prop where
  read_word (member : α) : Keyword.read (Keyword.word member) = .ok member

namespace Faithful

variable {α : Type}

theorem decode_of_looser [Coded α] [Faithful α] {x y : Datum} {a : α} (hx : decode x = .ok a)
    (h : ReflTransGen (Loosens (Coded.shape α)) x y) : decode y = .ok a := by
  induction h with
  | refl => exact hx
  | tail _ hstep ih => exact decode_of_loosens ih hstep

/-! ## Data without fields -/

instance : Definite String where
  decode_encode _ := rfl
  decode_of_loosens _ h := nomatch h
  encode_ne_null _ := Datum.noConfusion

instance : Definite Bool where
  decode_encode _ := rfl
  decode_of_loosens _ h := nomatch h
  encode_ne_null _ := Datum.noConfusion

instance : Definite Int64 where
  decode_encode n := by
    have hfits : Datum.fitsWord n.toInt := by
      rw [Datum.fitsWord, Bool.and_eq_true, decide_eq_true_iff, decide_eq_true_iff]
      exact ⟨n.minValue_le_toInt, n.toInt_le⟩
    show (if Datum.fitsWord n.toInt then _ else _) = _
    rw [if_pos hfits, n.ofInt_toInt]
  decode_of_loosens _ h := nomatch h
  encode_ne_null _ := Datum.noConfusion

instance [Keyword α] [Legible α] : Definite α where
  decode_encode member := mapError_eq_ok_iff.mpr (Legible.read_word member)
  decode_of_loosens _ h := nomatch h
  encode_ne_null _ := Datum.noConfusion

/-! ## Lists and absent values -/

section Composite

variable [Coded α]

theorem decode_list_eq_ok_iff {xs : List Datum} {as : List α} :
    decode (.list xs) = .ok as ↔ List.Forall₂ (fun x a => decode x = .ok a) xs as :=
  mapM_eq_ok_iff

instance [Faithful α] : Definite (List α) where
  decode_encode as := by
    refine decode_list_eq_ok_iff.mpr (List.forall₂_map_left_iff.mpr ?_)
    exact List.forall₂_same.mpr fun a _ => Faithful.decode_encode a
  decode_of_loosens {x y as} hx h := by
    cases h with
    | item hitem hxy =>
      rw [decode_list_eq_ok_iff] at hx ⊢
      exact forall₂_set hx hitem fun a ha => decode_of_loosens ha hxy
  encode_ne_null _ := Datum.noConfusion

/-- What is not null is read as a value. -/
theorem decode_option_eq_ok_iff {x : Datum} (h : x ≠ .null) {a : Option α} :
    decode x = .ok a ↔ ∃ b, decode x = .ok b ∧ some b = a := by
  rw [← map_eq_ok_iff]
  cases x with
  | null => exact absurd rfl h
  | flag | integer | binary | text | list | record => rfl

instance [Definite α] : Faithful (Option α) where
  decode_encode
    | none => rfl
    | some a => (decode_option_eq_ok_iff (Definite.encode_ne_null a)).mpr ⟨a, decode_encode a, rfl⟩
  decode_of_loosens {x y a} hx h := by
    obtain ⟨hx', hy'⟩ := h.ne_null
    obtain ⟨b, hb, rfl⟩ := (decode_option_eq_ok_iff hx').mp hx
    exact (decode_option_eq_ok_iff hy').mpr ⟨b, decode_of_loosens hb h, rfl⟩

end Composite

end Faithful

/-! ## Fields -/

namespace Fields

variable {σ α β : Type}

theorem apply_eq_ok_iff {x : Except Trouble (β → α)} {y : Except Trouble β} {a : α} :
    apply x y = .ok a ↔ ∃ f b, x = .ok f ∧ y = .ok b ∧ f b = a := by
  cases x with
  | error t => cases y <;> simp [apply]
  | ok f => cases y <;> simp [apply]

section Value

variable [Coded β] {es : Entries} {key : String} {absent : Except Trouble β}

theorem value_of_lookup_eq_some {x : Datum} (h : es.lookup key = some x) {b : β} :
    value es key absent = .ok b ↔ decode x = .ok b := by
  unfold value
  rw [h]
  exact mapError_eq_ok_iff

theorem value_of_lookup_eq_none (h : es.lookup key = none) : value es key absent = absent := by
  unfold value
  rw [h]

/-- What a step leaves under a key is read as what was there, if a field that may be left out
means what it is written as. -/
theorem value_of_keeps [Faithful β] {f : FieldShape Shape}
    (hshape : f.shape = Coded.shape β)
    (habsent : ∀ x, f.absent = some x → ∃ b, decode x = .ok b ∧ absent = .ok b)
    {es' : Entries} {b : β} (hes : value es f.key absent = .ok b)
    (h : f.Keeps (es.lookup f.key) (es'.lookup f.key)) : value es' f.key absent = .ok b := by
  generalize hbefore : es.lookup f.key = before at h
  generalize hafter : es'.lookup f.key = after at h
  cases h with
  | same =>
    unfold value at hes ⊢
    rwa [hafter, ← hbefore]
  | @dropped x hx =>
    obtain ⟨c, hc, rfl⟩ := habsent x hx
    rw [value_of_lookup_eq_some hbefore] at hes
    obtain rfl : c = b := Except.ok.inj (hc.symm.trans hes)
    exact value_of_lookup_eq_none hafter
  | loosened hxy =>
    rw [value_of_lookup_eq_some hbefore] at hes
    rw [value_of_lookup_eq_some hafter]
    exact Faithful.decode_of_loosens hes (hshape ▸ hxy)

end Value

/-- A list of fields that reads what it writes, and the same from a looser document; `make`
puts together again what the fields are taken from. -/
class Restores (fields : Fields σ α) (make : outParam (σ → α)) : Prop where
  key_of_mem_write (s : σ) : ∀ e ∈ fields.write s, e.1 ∈ fields.shape.map FieldShape.key
  read_of_write (hnodup : (fields.shape.map FieldShape.key).Nodup) {s : σ} {es : Entries}
    (h : ∀ f ∈ fields.shape, es.lookup f.key = (fields.write s).lookup f.key) :
    fields.read es = .ok (make s)
  read_of_keeps {es es' : Entries} {a : α} (hes : fields.read es = .ok a)
    (h : ∀ f ∈ fields.shape, f.Keeps (es.lookup f.key) (es'.lookup f.key)) :
    fields.read es' = .ok a

section Last

variable {es : Entries} {x : Option Datum} {key k : String}

/-- An entry that is written last, if at all, hides no other, -/
theorem lookup_last_of_ne (h : key ≠ k) :
    (es ++ (x.map fun x => (k, x)).toList).lookup key = es.lookup key := by
  rw [List.lookup_append]
  cases x with
  | none => exact Option.or_none
  | some x =>
    rw [Option.map_some, Option.toList_some, List.lookup_cons, beq_eq_false_iff_ne.mpr h]
    exact Option.or_none

/-- and is found under a key that no other has. -/
theorem lookup_last_self (h : ∀ e ∈ es, e.1 ≠ k) :
    (es ++ (x.map fun x => (k, x)).toList).lookup k = x := by
  have hnone : es.lookup k = none :=
    List.lookup_eq_none_iff.mpr fun e he => bne_iff_ne.mpr (h e he).symm
  rw [List.lookup_append, hnone, Option.none_or]
  cases x with
  | none => rfl
  | some x => exact List.lookup_cons_self

end Last

namespace Restores

instance (a : α) : (start a : Fields σ α).Restores fun _ => a where
  key_of_mem_write _ _ he := absurd he List.not_mem_nil
  read_of_write _ _ _ _ := rfl
  read_of_keeps hes _ := hes

variable [Coded β] [Faithful β] {fields : Fields σ (β → α)} {make : σ → β → α}
  [fields.Restores make]

/-- **One more field.** However it is declared: `entry` is what is written for it, if anything,
and `absent` is what it is read as where there is no entry. -/
theorem more {more : Fields σ α} (f : FieldShape Shape) (entry : σ → Option Datum)
    {absent : Except Trouble β} {get : σ → β} (hshape : more.shape = fields.shape ++ [f])
    (hwrite : ∀ s, more.write s = fields.write s ++ ((entry s).map fun x => (f.key, x)).toList)
    (hread : ∀ es, more.read es = apply (fields.read es) (value es f.key absent))
    (hf : f.shape = Coded.shape β) (hentry : ∀ s x, entry s = some x → decode x = .ok (get s))
    (hnone : ∀ s, entry s = none → absent = .ok (get s))
    (habsent : ∀ x, f.absent = some x → ∃ b, decode x = .ok b ∧ absent = .ok b) :
    more.Restores fun s => make s (get s) where
  key_of_mem_write s e he := by
    rw [hshape, List.map_append, List.mem_append]
    rw [hwrite, List.mem_append] at he
    rcases he with he | he
    · exact .inl (key_of_mem_write s e he)
    · obtain ⟨x, -, rfl⟩ := Option.map_eq_some_iff.mp (Option.mem_toList.mp he)
      exact .inr List.mem_cons_self
  read_of_write hnodup {s es} h := by
    rw [hshape, List.map_append, List.nodup_append'] at hnodup
    obtain ⟨hnodup, -, hdisjoint⟩ := hnodup
    rw [hshape, List.forall_mem_append, List.forall_mem_singleton, hwrite] at h
    obtain ⟨hfields, hlast⟩ := h
    have hread' : fields.read es = .ok (make s) := by
      refine read_of_write hnodup fun g hg => ?_
      rw [hfields g hg, lookup_last_of_ne]
      exact fun hkey => hdisjoint (List.mem_map_of_mem hg) (hkey ▸ List.mem_cons_self)
    have hentry' : es.lookup f.key = entry s := by
      rw [hlast, lookup_last_self]
      exact fun e he hkey => hdisjoint (key_of_mem_write s e he) (hkey ▸ List.mem_cons_self)
    rw [hread]
    refine apply_eq_ok_iff.mpr ⟨make s, get s, hread', ?_, rfl⟩
    cases hx : entry s with
    | some x => exact (value_of_lookup_eq_some (hentry'.trans hx)).mpr (hentry s x hx)
    | none => rw [value_of_lookup_eq_none (hentry'.trans hx), hnone s hx]
  read_of_keeps {es es' a} hes h := by
    rw [hshape] at h
    rw [hread] at hes ⊢
    obtain ⟨g, b, hg, hb, rfl⟩ := apply_eq_ok_iff.mp hes
    refine apply_eq_ok_iff.mpr ⟨g, b, ?_, ?_, rfl⟩
    · exact read_of_keeps hg fun f hf => h f (List.mem_append_left _ hf)
    · exact value_of_keeps hf habsent hb (h f (List.mem_append_right _ List.mem_cons_self))

instance {key : String} {get : σ → β} :
    (fields.required key get).Restores fun s => make s (get s) := by
  refine more ⟨key, none, Coded.shape β⟩ (fun s => some (encode (get s))) rfl (fun _ => rfl)
    (fun _ => rfl) rfl ?_ (fun _ h => nomatch h) (fun _ h => nomatch h)
  intro s x hx
  obtain rfl := Option.some.inj hx
  exact Faithful.decode_encode _

instance {key : String} {absent : β} {get : σ → β} :
    (fields.optional key absent get).Restores fun s => make s (get s) := by
  refine more ⟨key, some (encode absent), Coded.shape β⟩ (fun s => some (encode (get s))) rfl
    (fun _ => rfl) (fun _ => rfl) rfl ?_ (fun _ h => nomatch h) ?_
  · intro s x hx
    obtain rfl := Option.some.inj hx
    exact Faithful.decode_encode _
  · intro x hx
    obtain rfl := Option.some.inj hx
    exact ⟨absent, Faithful.decode_encode _, rfl⟩

instance {γ : Type} [Coded γ] [Definite γ] {fields : Fields σ (Option γ → α)}
    {make : σ → Option γ → α} [fields.Restores make] {key : String} {get : σ → Option γ} :
    (fields.sparse key get).Restores fun s => make s (get s) := by
  refine more ⟨key, some .null, Coded.shape γ⟩ (fun s => (get s).map encode) rfl ?_
    (fun _ => rfl) rfl ?_ ?_ ?_
  · intro s
    rw [Option.map_map]
    rfl
  · intro s x hx
    obtain ⟨c, hc, rfl⟩ := Option.map_eq_some_iff.mp hx
    rw [hc]
    exact Faithful.decode_encode (some c)
  · intro s hs
    rw [Option.map_eq_none_iff.mp hs]
  · intro x hx
    obtain rfl := Option.some.inj hx
    exact ⟨none, rfl, rfl⟩

end Restores

end Fields

/-- **Records.** A record type is faithful if its fields are and make up what they are taken
from, and no key is declared twice, which can be decided where the fields are known. -/
theorem Definite.record {α : Type} {name : String} {fields : Fields α α} {make : α → α}
    [fields.Restores make] (hmake : ∀ a, make a = a)
    (hnodup : (fields.shape.map FieldShape.key).Nodup := by decide +kernel) :
    @Definite α (Coded.record name fields) :=
  letI := Coded.record name fields
  { decode_encode := fun a => by
      refine mapError_eq_ok_iff.mpr ?_
      rw [Fields.Restores.read_of_write hnodup fun _ _ => rfl, hmake]
    decode_of_loosens := fun {x y a} hx h => by
      obtain ⟨es, es', rfl, rfl⟩ := h.exists_entries
      refine mapError_eq_ok_iff.mpr (Fields.Restores.read_of_keeps (mapError_eq_ok_iff.mp hx) ?_)
      exact fun f hf => h.keeps hnodup hf
    encode_ne_null := fun _ => Datum.noConfusion }

end LayeredSchema
