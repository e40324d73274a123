import StyledTemplate.Bindings.Context
import StyledTemplate.Bindings.Record
import StyledTemplate.Proofs.Fields
import StyledTemplate.Proofs.Text.Paths

/-!
# What binding a record binds

The fields of a record are spread out: a field that holds a record is replaced by the fields of that
record, in any order, and itself behind them (`Expands`). Whatever the order, each name that occurs
there is bound to what its last occurrence says, and all other bindings stay as they are
(`bindFields_binds`). So a record can be bound by itself and merged into other bindings.
-/

namespace StyledTemplate

/-- The fields of a record, spread out: before each field that holds a record stand the fields of
that record, in some order. -/
inductive Expands : List (String × Value) → List (String × Value) → Prop
  | nil : Expands [] []
  | cons {field : String × Value} {fields entries expansion : List (String × Value)}
      (hentries : entries.Perm (field.2.fields?.getD [])) (hrest : Expands fields expansion) :
      Expands (field :: fields) (entries ++ field :: expansion)

/-- The field has the name, or holds a record with a field of that name. -/
def BindsName (field : String × Value) (name : String) : Prop :=
  field.1 = name ∨ ∃ entries, field.2.fields? = some entries ∧ name ∈ entries.keys

/-- `bound` is what comes of binding the fields of a record on top of `b`. -/
structure BindsRecord (b : Bindings) (fields : List (String × Value)) (bound : Bindings) :
    Prop where
  /-- The order of the fields within each record does not matter. -/
  any_order : ∀ expansion, Expands fields expansion → b.setValues expansion = bound
  /-- A name is bound to what its last occurrence says. -/
  last : ∀ before name value after, Expands fields (before ++ (name, value) :: after) →
    name ∉ after.map Prod.fst → bound.values.find? name = some value
  /-- A variable of another name stays as it is. -/
  others : ∀ expansion name, Expands fields expansion → name ∉ expansion.map Prod.fst →
    bound.values.find? name = b.values.find? name
  /-- The lists stay as they are. -/
  lists : bound.lists = b.lists
  /-- So do the conditions. -/
  conditions : bound.conditions = b.conditions
  /-- So do the images. -/
  images : bound.images = b.images
  /-- A field that no later one hides is bound to its own value. -/
  own : ∀ before name value after, fields = before ++ (name, value) :: after →
    (∀ later ∈ after, ¬ BindsName later name) → bound.values.find? name = some value

/-! ## Any order -/

section Expansion

variable {fields expansion : List (String × Value)} {name : String}

theorem expands_flatMap (fields : List (String × Value)) :
    Expands fields (fields.flatMap flattenField) := by
  induction fields with
  | nil => exact .nil
  | cons field fields ih =>
    have hsplit : (field :: fields).flatMap flattenField =
        field.2.fields?.getD [] ++ field :: fields.flatMap flattenField := by
      rw [List.flatMap_cons, flattenField, List.append_assoc, List.singleton_append]
    rw [hsplit]
    exact .cons (.refl _) ih

/-- Spreading out in another order does not change which value of a name is the last one. -/
theorem Expands.lastValue?_eq (h : Expands fields expansion)
    (hdistinct : ∀ field ∈ fields, (field.2.fields?.getD []).keys.Nodup) (name : String) :
    lastValue? expansion name = lastValue? (fields.flatMap flattenField) name := by
  induction h with
  | nil => rfl
  | @cons field fields entries expansion hentries _ ih =>
    obtain ⟨hfield, hfields⟩ := List.forall_mem_cons.1 hdistinct
    have hrest := ih hfields
    have hinner := lastValue?_perm hentries hfield name
    rw [List.flatMap_cons, flattenField, List.append_assoc, List.singleton_append,
      lastValue?_append, lastValue?_append, lastValue?_cons, lastValue?_cons, hrest, hinner]

/-- Where no field binds a name, it does not occur when they are spread out. -/
theorem not_mem_flatMap_flattenField (h : ∀ field ∈ fields, ¬ BindsName field name) :
    name ∉ (fields.flatMap flattenField).map Prod.fst := by
  intro hmem
  obtain ⟨pair, hpair, rfl⟩ := List.mem_map.1 hmem
  obtain ⟨field, hfield, hwithin⟩ := List.mem_flatMap.1 hpair
  refine h field hfield ?_
  rw [flattenField, List.mem_append, List.mem_singleton] at hwithin
  rcases hwithin with hinner | rfl
  · right
    cases hentries : field.2.fields? with
    | none =>
      rw [hentries] at hinner
      cases hinner
    | some entries =>
      rw [hentries] at hinner
      exact ⟨entries, rfl, List.mem_map_of_mem hinner⟩
  · exact .inl rfl

end Expansion

/-! ## Binding -/

namespace Bindings

theorem find?_setValues (b : Bindings) (pairs : List (String × Value)) (name : String) :
    (b.setValues pairs).values.find? name = (lastValue? pairs name).or (b.values.find? name) :=
  NameMap.find?_insertAll b.values pairs name

/-- What is bound one after the other depends only on the last value of each name. -/
theorem setValues_congr (b : Bindings) {pairs pairs' : List (String × Value)}
    (h : ∀ name, lastValue? pairs name = lastValue? pairs' name) :
    b.setValues pairs = b.setValues pairs' := by
  have hvalues : (b.setValues pairs).values = (b.setValues pairs').values := by
    refine NameMap.ext_find? fun name => ?_
    rw [find?_setValues, find?_setValues, h]
  exact congrArg (fun values => { b with values }) hvalues

/-- Merging in the bindings of a record is binding what they bind, in any order. -/
theorem setValues_of_perm (b : Bindings) {fields entries : List (String × Value)}
    (hentries : entries.Perm (ofFields fields).values.entries) :
    b.setValues entries = b.bindFields fields := by
  refine b.setValues_congr fun name => ?_
  have hsorted := (ofFields fields).values.sorted
  have hdistinct : ((ofFields fields).values.entries.map Prod.fst).Nodup :=
    List.pairwise_map.2 (hsorted.imp String.ne_of_lt)
  calc lastValue? entries name
      = lastValue? (ofFields fields).values.entries name := lastValue?_perm hentries hdistinct name
    _ = (ofFields fields).values.find? name := hsorted.lastValue?_eq name
    _ = lastValue? (fields.flatMap flattenField) name := NameMap.find?_ofPairs _ name

theorem merge_ofFields (b : Bindings) (fields : List (String × Value)) :
    b.merge (ofFields fields) = b.bindFields fields :=
  b.setValues_of_perm (.refl _)

/-- The text of a name without dots leads to the variable of that name. -/
theorem get?_of_find? {b : Bindings} {name : String} {value : Value} {strict : Bool}
    (hdot : '.' ∉ name.toList) (hfind : b.values.find? name = some value) :
    Context.get? { bindings := b, strict } name = some value := by
  have hscoped : Context.scoped? { bindings := b, strict } name = none := rfl
  have hlookup : value.lookup "" = some value := by rw [Value.lookup, if_pos rfl]
  rw [Context.get?, Text.splitPath_of_not_mem hdot]
  dsimp only
  rw [hscoped, hfind]
  exact hlookup

end Bindings

theorem bindsRecord_bindFields (b : Bindings) {fields : List (String × Value)}
    (hdistinct : ∀ field ∈ fields, (field.2.fields?.getD []).keys.Nodup) :
    BindsRecord b fields (b.bindFields fields) where
  any_order expansion hexpands := b.setValues_congr (hexpands.lastValue?_eq hdistinct)
  last before name value after hexpands hlast := by
    have hvalue := hexpands.lastValue?_eq hdistinct name
    rw [lastValue?_eq_some_iff.2 ⟨before, after, rfl, hlast⟩] at hvalue
    rw [Bindings.bindFields, Bindings.find?_setValues, ← hvalue]
    rfl
  others expansion name hexpands hother := by
    have hnone : lastValue? expansion name = none := by
      rw [← Option.not_isSome_iff_eq_none, lastValue?_isSome_iff]
      exact hother
    have hvalue := hexpands.lastValue?_eq hdistinct name
    rw [Bindings.bindFields, Bindings.find?_setValues, ← hvalue, hnone]
    rfl
  lists := rfl
  conditions := rfl
  images := rfl
  own before name value after hfields hlater := by
    have hsplit : fields.flatMap flattenField =
        (before.flatMap flattenField ++ value.fields?.getD []) ++
          (name, value) :: after.flatMap flattenField := by
      rw [hfields, List.flatMap_append, List.flatMap_cons, flattenField]
      simp only [List.append_assoc, List.singleton_append]
    have hlast := lastValue?_eq_some_iff.2
      ⟨_, _, hsplit, not_mem_flatMap_flattenField hlater⟩
    rw [Bindings.bindFields, Bindings.find?_setValues, hlast]
    rfl

/-- Binding the fields of a record spreads them out one level and binds them one after the other, so
that the last occurrence of a name counts. This changes nothing but these variables, it does not
depend on the order in which any record or the bindings are run through, and it comes to the same
as binding the record by itself and merging that in. A placeholder with the name of a field shows
the value of this field, unless a later field binds the name. -/
theorem bindFields_binds (b : Bindings) (fields : List (String × Value))
    (hdistinct : ∀ field ∈ fields, (field.2.fields?.getD []).keys.Nodup) :
    (∃ expansion, Expands fields expansion) ∧ BindsRecord b fields (b.bindFields fields) ∧
      b.merge (Bindings.ofFields fields) = b.bindFields fields ∧
      (∀ entries, entries.Perm (Bindings.ofFields fields).values.entries →
        b.setValues entries = b.bindFields fields) ∧
      (∀ before name value after, fields = before ++ (name, value) :: after →
        (∀ later ∈ after, ¬ BindsName later name) → '.' ∉ name.toList → ∀ strict,
        Context.get? { bindings := b.bindFields fields, strict } name = some value) := by
  have hbinds := bindsRecord_bindFields b hdistinct
  refine ⟨⟨_, expands_flatMap fields⟩, hbinds, b.merge_ofFields fields, ?_, ?_⟩
  · intro entries hentries
    exact b.setValues_of_perm hentries
  · intro before name value after hfields hlater hdot strict
    exact Bindings.get?_of_find? hdot (hbinds.own before name value after hfields hlater)

/-- A parcel with a name, a sender who has a name and a sender as well, and another name. -/
def parcel : List (String × Value) :=
  [("name", .string "P1"),
    ("sender", .map [("city", .string "Leeds"), ("name", .string "Depot"), ("sender", .null)]),
    ("name", .string "P2")]

/-- Of three names the last one counts, and the sender hides the one that it has. What has been
bound before stays unless the parcel binds it. -/
theorem parcel_binds :
    let b := (Bindings.empty.setValue "city" .null).setValue "weight" (.string "2 kg")
    (b.bindFields parcel).values.find? "name" = some (.string "P2") ∧
      (b.bindFields parcel).values.find? "city" = some (.string "Leeds") ∧
      Context.get? { bindings := b.bindFields parcel } "sender" = some (.map
        [("city", .string "Leeds"), ("name", .string "Depot"), ("sender", .null)]) ∧
      (b.bindFields parcel).values.find? "weight" = some (.string "2 kg") := by
  intro b
  have hdistinct : ∀ field ∈ parcel, (field.2.fields?.getD []).keys.Nodup := by
    rw [parcel, List.forall_mem_cons, List.forall_mem_cons, List.forall_mem_singleton]
    exact ⟨List.nodup_nil, by decide, List.nodup_nil⟩
  obtain ⟨-, hbinds, -, -, hget⟩ := bindFields_binds b parcel hdistinct
  have hexpands := expands_flatMap parcel
  refine ⟨?_, ?_, ?_, ?_⟩
  · exact hbinds.own (parcel.take 2) "name" (.string "P2") [] rfl nofun
  · exact hbinds.last [("name", .string "P1")] "city" (.string "Leeds") _ hexpands (by decide)
  · refine hget [("name", .string "P1")] "sender" _ [("name", .string "P2")] rfl ?_ (by decide) false
    rw [List.forall_mem_singleton]
    rintro (hname | ⟨entries, hentries, -⟩)
    · exact absurd hname (by decide)
    · cases hentries
  · exact hbinds.others _ "weight" hexpands (by decide)

end StyledTemplate
