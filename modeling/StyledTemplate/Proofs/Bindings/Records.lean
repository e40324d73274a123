import StyledTemplate.Bindings.Record
import StyledTemplate.Proofs.Fields

/-!
# Two ways to bind a record

The fields of a record are bound in the order of their declaration, or the record is written as a
JSON object first and its fields are bound in the order of their names. Either way a name is bound to
what the last field says that binds it, so the two ways differ only where several fields bind a name,
and there exactly if the one declared last and the one with the greatest name bind it to different
values (`ofJson_recordJson`).
-/

namespace StyledTemplate

/-! ## Values without floating-point numbers -/

/-- The value has no floating-point numbers in it, and the fields of its records are in order. -/
inductive Value.IsPlain : Value → Prop
  | null : IsPlain .null
  | string (s : String) : IsPlain (.string s)
  | integer (n : Int64) : IsPlain (.integer n)
  | bool (b : Bool) : IsPlain (.bool b)
  | list {items : List Value} (h : ∀ item ∈ items, item.IsPlain) : IsPlain (.list items)
  | map {fields : List (String × Value)} (hsorted : Fields.Sorted fields)
      (h : ∀ field ∈ fields, field.2.IsPlain) : IsPlain (.map fields)

namespace Value

theorem toItems_eq (items : List Value) : toItems items = items.map toJson := by
  induction items with
  | nil => rw [toItems, List.map_nil]
  | cons item items ih => rw [toItems, ih, List.map_cons]

theorem ofItems_eq (items : List Json) : ofItems items = items.map ofJson := by
  induction items with
  | nil => rw [ofItems, List.map_nil]
  | cons item items ih => rw [ofItems, ih, List.map_cons]

theorem toJsonFields_eq (fields : List (String × Value)) :
    toJsonFields fields = fields.map fun field => (field.1, field.2.toJson) := by
  induction fields with
  | nil => rw [toJsonFields, List.map_nil]
  | cons field fields ih => rw [toJsonFields, ih, List.map_cons]

theorem ofJsonFields_eq (fields : List (String × Json)) :
    ofJsonFields fields = fields.map fun field => (field.1, ofJson field.2) := by
  induction fields with
  | nil => rw [ofJsonFields, List.map_nil]
  | cons field fields ih => rw [ofJsonFields, ih, List.map_cons]

theorem ofInt_toInt (n : Int64) : ofInt n.toInt = .integer n := by
  have hleast := Int64.le_toInt n
  have hbound := Int64.toInt_lt n
  have hpow : Int.pow 2 63 = 2 ^ 63 := rfl
  rw [ofInt, hpow, if_pos ⟨hleast, hbound⟩, Int64.ofInt_toInt]

/-- Written as JSON and read again, a value without floating-point numbers is the same. -/
theorem IsPlain.ofJson_toJson {v : Value} (h : v.IsPlain) : ofJson v.toJson = v := by
  induction h with
  | null => rw [toJson, ofJson]
  | string s => rw [toJson, ofJson]
  | integer n => rw [toJson, ofJson, ofInt_toInt]
  | bool b => rw [toJson, ofJson]
  | @list items _ ih =>
    have hitems : ofItems (toItems items) = items := by
      rw [toItems_eq, ofItems_eq, List.map_map]
      exact (List.map_congr_left ih).trans (List.map_id items)
    rw [toJson, ofJson, hitems]
  | @map fields _ _ ih =>
    have hfields : ofJsonFields (toJsonFields fields) = fields := by
      rw [toJsonFields_eq, ofJsonFields_eq, List.map_map]
      have hsame : ∀ field ∈ fields, (field.1, ofJson field.2.toJson) = field :=
        fun field hfield => Prod.ext rfl (ih field hfield)
      exact (List.map_congr_left hsame).trans (List.map_id fields)
    rw [toJson, ofJson, hfields]

end Value

/-! ## Records -/

/-- The JSON object with the fields of a record. -/
def recordJson (fields : List (String × Value)) : Json :=
  .object (Fields.ofList (Value.toJsonFields fields))

/-- What a field of a record binds a name to: its own name to all that it holds, and if it holds a
record, the names of this record's fields to what they hold. -/
def boundBy? (field : String × Value) (name : String) : Option Value :=
  if field.1 = name then some field.2 else (field.2.fields?.getD []).find? name

/-- The field is the last one of those that bind a name. -/
inductive BindsLast (fields : List (String × Value)) (name : String) (field : String × Value) : Prop
  | intro {before after : List (String × Value)} (hfields : fields = before ++ field :: after)
      (hbinds : (boundBy? field name).isSome) (hafter : ∀ later ∈ after, boundBy? later name = none) :
      BindsLast fields name field

/-- The field has the greatest name of those that bind a name. -/
structure BindsGreatest (fields : List (String × Value)) (name : String)
    (field : String × Value) : Prop where
  /-- It is one of the fields. -/
  mem : field ∈ fields
  /-- It binds the name. -/
  binds : (boundBy? field name).isSome
  /-- No other field that binds the name has a greater name. -/
  greatest : ∀ other ∈ fields, (boundBy? other name).isSome → other.1 ≤ field.1

section Records

variable {fields : List (String × Value)} {name : String} {value : Value}

theorem lastValue?_flattenField {field : String × Value} (h : field.2.IsPlain) (name : String) :
    lastValue? (flattenField field) name = boundBy? field name := by
  have hinner : lastValue? (field.2.fields?.getD []) name =
      (field.2.fields?.getD []).find? name := by
    generalize field.2 = v at h
    cases h with
    | map hsorted _ => exact hsorted.lastValue?_eq name
    | _ => rfl
  rw [flattenField, lastValue?_append, hinner, boundBy?]
  by_cases hname : field.1 = name
  · simp [lastValue?, hname]
  · simp [lastValue?, hname]

theorem lastValue?_flatMap_flattenField (hplain : ∀ field ∈ fields, field.2.IsPlain)
    (name : String) : lastValue? (fields.flatMap flattenField) name =
      fields.reverse.findSome? fun field => boundBy? field name := by
  induction fields with
  | nil => rfl
  | cons field fields ih =>
    obtain ⟨hfield, hfields⟩ := List.forall_mem_cons.1 hplain
    rw [List.flatMap_cons, lastValue?_append, ih hfields, lastValue?_flattenField hfield,
      List.reverse_cons, List.findSome?_append, List.findSome?_singleton]

/-- The last field that binds a name is the first one from the end. -/
theorem findSome?_reverse_eq_some_iff :
    (fields.reverse.findSome? fun field => boundBy? field name) = some value ↔
      ∃ field, BindsLast fields name field ∧ boundBy? field name = some value := by
  rw [List.findSome?_eq_some_iff]
  constructor
  · rintro ⟨after, field, before, hsplit, hvalue, hafter⟩
    have hfields := congrArg List.reverse hsplit
    rw [List.reverse_reverse, List.reverse_append, List.reverse_cons, List.append_assoc,
      List.singleton_append] at hfields
    have hbinds : (boundBy? field name).isSome := by
      rw [hvalue]
      rfl
    exact ⟨field, .intro hfields hbinds fun later hlater =>
      hafter later (List.mem_reverse.1 hlater), hvalue⟩
  · rintro ⟨field, @⟨before, after, hfields, -, hafter⟩, hvalue⟩
    refine ⟨after.reverse, field, before.reverse, ?_, hvalue, fun later hlater =>
      hafter later (List.mem_reverse.1 hlater)⟩
    rw [hfields, List.reverse_append, List.reverse_cons, List.append_assoc, List.singleton_append]

theorem exists_bindsLast {field : String × Value} (hmem : field ∈ fields)
    (hbinds : (boundBy? field name).isSome) : ∃ last, BindsLast fields name last := by
  have hsome : (fields.reverse.findSome? fun field => boundBy? field name).isSome :=
    List.findSome?_isSome_iff.2 ⟨field, List.mem_reverse.2 hmem, hbinds⟩
  obtain ⟨value, hvalue⟩ := Option.isSome_iff_exists.1 hsome
  obtain ⟨last, hlast, -⟩ := findSome?_reverse_eq_some_iff.1 hvalue
  exact ⟨last, hlast⟩

theorem BindsLast.mem {field : String × Value} (h : BindsLast fields name field) :
    field ∈ fields := by
  obtain ⟨rfl, -, -⟩ := h
  exact List.mem_append_right _ List.mem_cons_self

theorem BindsLast.binds {field : String × Value} (h : BindsLast fields name field) :
    (boundBy? field name).isSome := by
  obtain ⟨-, hbinds, -⟩ := h
  exact hbinds

/-- The fields of a record bind a name to what the last one says that binds it. -/
theorem find?_ofFields_eq_some_iff (hplain : ∀ field ∈ fields, field.2.IsPlain) :
    (Bindings.ofFields fields).values.find? name = some value ↔
      ∃ field, BindsLast fields name field ∧ boundBy? field name = some value := by
  have hfind : (Bindings.ofFields fields).values.find? name =
      lastValue? (fields.flatMap flattenField) name := NameMap.find?_ofPairs _ name
  rw [hfind, lastValue?_flatMap_flattenField hplain, findSome?_reverse_eq_some_iff]

/-! ## Fields in the order of their names -/

theorem bindsLast_ofList_iff (hdistinct : (fields.map Prod.fst).Nodup) {field : String × Value} :
    BindsLast (Fields.ofList fields) name field ↔ BindsGreatest fields name field := by
  have hsorted := Fields.sorted_ofList fields
  constructor
  · intro h
    refine ⟨(Fields.mem_ofList_iff hdistinct).1 h.mem, h.binds, fun other hother hsome => ?_⟩
    obtain @⟨before, after, hfields, -, hafter⟩ := h
    have hmem : other ∈ before ++ field :: after := by
      rw [← hfields]
      exact (Fields.mem_ofList_iff hdistinct).2 hother
    rw [hfields] at hsorted
    -- the fields before this one have smaller names, and none behind it binds the name
    rcases List.mem_append.1 hmem with hbefore | hrest
    · have hlt := (List.pairwise_append.1 hsorted).2.2 other hbefore field List.mem_cons_self
      exact String.not_lt.1 fun hgt => String.lt_irrefl _ (String.lt_trans hlt hgt)
    · rcases List.mem_cons.1 hrest with rfl | hlater
      · exact String.le_refl _
      · rw [hafter other hlater] at hsome
        cases hsome
  · intro h
    obtain ⟨before, after, hfields⟩ :=
      List.append_of_mem ((Fields.mem_ofList_iff hdistinct).2 h.mem)
    refine .intro hfields h.binds fun later hlater => ?_
    have hmem : later ∈ fields := by
      rw [← Fields.mem_ofList_iff hdistinct, hfields]
      exact List.mem_append_right _ (List.mem_cons_of_mem _ hlater)
    rw [hfields] at hsorted
    have hlt := (List.pairwise_cons.1 (List.pairwise_append.1 hsorted).2.1).1 later hlater
    cases hbound : boundBy? later name with
    | none => rfl
    | some value =>
      have hle := h.greatest later hmem (by rw [hbound]; rfl)
      exact absurd hlt (String.not_lt.2 hle)

theorem isPlain_of_mem_ofList (hdistinct : (fields.map Prod.fst).Nodup)
    (hplain : ∀ field ∈ fields, field.2.IsPlain) :
    ∀ field ∈ Fields.ofList fields, field.2.IsPlain := by
  intro field hfield
  exact hplain field ((Fields.mem_ofList_iff hdistinct).1 hfield)

/-- Through JSON the fields of a record are bound in the order of their names. -/
theorem ofJson_recordJson_eq (hdistinct : (fields.map Prod.fst).Nodup)
    (hplain : ∀ field ∈ fields, field.2.IsPlain) :
    Bindings.ofJson (recordJson fields) = .ok (Bindings.ofFields (Fields.ofList fields)) := by
  have hsame : ∀ field ∈ Fields.ofList fields,
      (field.1, Value.ofJson field.2.toJson) = field := by
    intro field hfield
    exact Prod.ext rfl (isPlain_of_mem_ofList hdistinct hplain field hfield).ofJson_toJson
  have hfields : Value.ofJsonFields (Fields.ofList (Value.toJsonFields fields)) =
      Fields.ofList fields := by
    rw [Value.toJsonFields_eq, ← Fields.map_ofList, Value.ofJsonFields_eq, List.map_map]
    exact (List.map_congr_left hsame).trans (List.map_id _)
  rw [recordJson, Bindings.ofJson, hfields]

/-- Through JSON a name is bound by the field with the greatest name that binds it. -/
theorem find?_ofFields_ofList_eq_some_iff (hdistinct : (fields.map Prod.fst).Nodup)
    (hplain : ∀ field ∈ fields, field.2.IsPlain) :
    (Bindings.ofFields (Fields.ofList fields)).values.find? name = some value ↔
      ∃ field, BindsGreatest fields name field ∧ boundBy? field name = some value := by
  rw [find?_ofFields_eq_some_iff (isPlain_of_mem_ofList hdistinct hplain)]
  simp only [bindsLast_ofList_iff hdistinct]

theorem exists_bindsGreatest (hdistinct : (fields.map Prod.fst).Nodup) {field : String × Value}
    (hmem : field ∈ fields) (hbinds : (boundBy? field name).isSome) :
    ∃ greatest, BindsGreatest fields name greatest := by
  obtain ⟨greatest, hgreatest⟩ :=
    exists_bindsLast ((Fields.mem_ofList_iff hdistinct).2 hmem) hbinds
  exact ⟨greatest, (bindsLast_ofList_iff hdistinct).1 hgreatest⟩

/-- The bindings of a record depend on the variables only. -/
theorem ofFields_eq_iff {fields fields' : List (String × Value)} :
    Bindings.ofFields fields = Bindings.ofFields fields' ↔
      ∀ name, (Bindings.ofFields fields).values.find? name =
        (Bindings.ofFields fields').values.find? name := by
  constructor
  · intro h name
    rw [h]
  · intro h
    have hvalues : (Bindings.ofFields fields).values = (Bindings.ofFields fields').values :=
      NameMap.ext_find? h
    exact congrArg (fun values => { Bindings.empty with values }) hvalues

/-- Both orders bind the same if for each name the last field and the greatest one that bind it agree
on what it is bound to. -/
theorem ofFields_ofList_eq_iff (hdistinct : (fields.map Prod.fst).Nodup)
    (hplain : ∀ field ∈ fields, field.2.IsPlain) :
    Bindings.ofFields (Fields.ofList fields) = Bindings.ofFields fields ↔
      ∀ name last greatest, BindsLast fields name last → BindsGreatest fields name greatest →
        boundBy? last name = boundBy? greatest name := by
  rw [ofFields_eq_iff]
  constructor
  · intro h name last greatest hlast hgreatest
    obtain ⟨value, hvalue⟩ := Option.isSome_iff_exists.1 hlast.binds
    obtain ⟨other, hother⟩ := Option.isSome_iff_exists.1 hgreatest.binds
    have hdeclared := (find?_ofFields_eq_some_iff hplain).2 ⟨last, hlast, hvalue⟩
    have hordered := (find?_ofFields_ofList_eq_some_iff hdistinct hplain).2
      ⟨greatest, hgreatest, hother⟩
    rw [h name, hdeclared] at hordered
    rw [hvalue, hother, hordered]
  · intro h name
    refine Option.ext fun value => ?_
    rw [find?_ofFields_eq_some_iff hplain, find?_ofFields_ofList_eq_some_iff hdistinct hplain]
    constructor
    · rintro ⟨greatest, hgreatest, hvalue⟩
      obtain ⟨last, hlast⟩ := exists_bindsLast hgreatest.mem hgreatest.binds
      exact ⟨last, hlast, (h name last greatest hlast hgreatest).trans hvalue⟩
    · rintro ⟨last, hlast, hvalue⟩
      obtain ⟨greatest, hgreatest⟩ := exists_bindsGreatest hdistinct hlast.mem hlast.binds
      exact ⟨greatest, hgreatest, (h name last greatest hlast hgreatest).symm.trans hvalue⟩

end Records

/-- A record of fields with different names that hold no floating-point numbers can be bound through
JSON. Bound by its fields, each name is bound by the last field that binds it, and bound through
JSON by the one with the greatest name. So both ways give the same exactly if for each name these two
fields agree on what it is bound to. -/
theorem ofJson_recordJson {fields : List (String × Value)}
    (hdistinct : (fields.map Prod.fst).Nodup) (hplain : ∀ field ∈ fields, field.2.IsPlain) :
    ∃ b, Bindings.ofJson (recordJson fields) = .ok b ∧
      (∀ name value, (Bindings.ofFields fields).values.find? name = some value ↔
        ∃ field, BindsLast fields name field ∧ boundBy? field name = some value) ∧
      (∀ name value, b.values.find? name = some value ↔
        ∃ field, BindsGreatest fields name field ∧ boundBy? field name = some value) ∧
      (b = Bindings.ofFields fields ↔
        ∀ name last greatest, BindsLast fields name last → BindsGreatest fields name greatest →
          boundBy? last name = boundBy? greatest name) :=
  ⟨Bindings.ofFields (Fields.ofList fields), ofJson_recordJson_eq hdistinct hplain,
    fun _ _ => find?_ofFields_eq_some_iff hplain,
    fun _ _ => find?_ofFields_ofList_eq_some_iff hdistinct hplain,
    ofFields_ofList_eq_iff hdistinct hplain⟩

/-- A shipment from one place to another, each of which has a name and a city. -/
def shipment : List (String × Value) :=
  [("name", .string "S1"),
    ("origin", .map [("city", .string "Leeds"), ("name", .string "Depot")]),
    ("destination", .map [("city", .string "York"), ("name", .string "Shop")])]

theorem shipment_isPlain : ∀ field ∈ shipment, field.2.IsPlain := by
  have hplace : ∀ city name : String,
      (Value.map [("city", .string city), ("name", .string name)]).IsPlain := by
    intro city name
    have hlt : "city" < "name" := by decide
    refine .map (List.pairwise_pair.2 hlt) ?_
    rw [List.forall_mem_cons, List.forall_mem_singleton]
    exact ⟨.string city, .string name⟩
  rw [shipment, List.forall_mem_cons, List.forall_mem_cons, List.forall_mem_singleton]
  exact ⟨.string "S1", hplace "Leeds" "Depot", hplace "York" "Shop"⟩

/-- The shipment has the name of its destination, which is declared last, and through JSON that of
its origin, which has the greatest name. -/
theorem shipment_names : ∃ b, Bindings.ofJson (recordJson shipment) = .ok b ∧
    (Bindings.ofFields shipment).values.find? "name" = some (.string "Shop") ∧
    b.values.find? "name" = some (.string "Depot") := by
  obtain ⟨b, hb, hdeclared, hordered, -⟩ := ofJson_recordJson (by decide) shipment_isPlain
  have hfields : shipment = shipment.take 2 ++
      [("destination", .map [("city", .string "York"), ("name", .string "Shop")])] := rfl
  have hlast : BindsLast shipment "name"
      ("destination", .map [("city", .string "York"), ("name", .string "Shop")]) :=
    .intro hfields rfl (List.forall_mem_nil _)
  have hgreatest : BindsGreatest shipment "name"
      ("origin", .map [("city", .string "Leeds"), ("name", .string "Depot")]) :=
    ⟨List.mem_cons_of_mem _ List.mem_cons_self, rfl, by decide +kernel⟩
  exact ⟨b, hb, (hdeclared _ _).2 ⟨_, hlast, rfl⟩, (hordered _ _).2 ⟨_, hgreatest, rfl⟩⟩

/-- The two ways to bind the shipment do not give the same. -/
theorem shipment_bound_apart : (shipment.map Prod.fst).Nodup ∧
    (∀ field ∈ shipment, field.2.IsPlain) ∧
    Bindings.ofJson (recordJson shipment) ≠ .ok (Bindings.ofFields shipment) := by
  refine ⟨by decide, shipment_isPlain, fun h => ?_⟩
  have hordered : ((Bindings.ofJson (recordJson shipment)).toOption.bind fun b =>
      (b.values.find? "name").bind Value.string?) = some "Depot" := by decide +kernel
  have hdeclared : ((Bindings.ofFields shipment).values.find? "name").bind Value.string? =
      some "Shop" := by decide +kernel
  rw [h] at hordered
  exact absurd (hdeclared.symm.trans hordered) (by decide)

end StyledTemplate
