import StyledTemplate.Proofs.Bindings.Records

/-!
# Equality of values

A whole number equals the floating-point number of the same size, so equal values need not be the
same. Equality is symmetric nevertheless, and two records are equal if they have the same number of
fields and each field of the one is found with an equal value in the other. Values without
floating-point numbers are equal if and only if they are alike, part by part
(`Value.IsPlain.beq_laws`).
-/

namespace StyledTemplate

/-! ## Floating-point numbers -/

section Floats

open Float.Model (UnpackedFloat)

/-- Two floating-point numbers compare as equal whichever of them stands first. -/
theorem compare_eq_eq_comm (x y : UnpackedFloat) :
    x.compare y = some .eq ↔ y.compare x = some .eq := by
  -- numbers of two kinds are told apart by their kinds and signs alone
  cases x with
  | notANumber => cases y <;> exact iff_of_false nofun nofun
  | infinity s =>
    cases y with
    | infinity t => cases s <;> cases t <;> decide
    | _ => cases s <;> exact iff_of_false nofun nofun
  | zero s =>
    cases y with
    | zero t => exact Iff.rfl
    | infinity t => cases t <;> exact iff_of_false nofun nofun
    | finite t n d hn => cases t <;> exact iff_of_false nofun nofun
    | notANumber => exact iff_of_false nofun nofun
  | finite s m e hm =>
    cases y with
    | finite t n d hn =>
      cases s <;> cases t <;> dsimp only [UnpackedFloat.compare] <;>
        simp [eq_comm (a := d) (b := e), eq_comm (a := n) (b := m)]
    | infinity t => cases t <;> exact iff_of_false nofun nofun
    | zero t => cases s <;> exact iff_of_false nofun nofun
    | notANumber => cases s <;> exact iff_of_false nofun nofun

theorem float_beq_comm (a b : Float) : (a == b) = (b == a) := by
  have hbeq : ∀ x y : Float, (x == y) = (x.toModel.unpack.compare y.toModel.unpack == some .eq) :=
    fun _ _ => rfl
  rw [hbeq, hbeq, Bool.eq_iff_iff, beq_iff_eq, beq_iff_eq]
  exact compare_eq_eq_comm _ _

end Floats

namespace Value

/-! ## Symmetry -/

mutual

/-- Equality does not depend on which value stands first. -/
theorem same_comm : ∀ a b : Value, a.same b = b.same a
  | .list as, b => by
    cases b with
    | list bs => exact sameItems_comm as bs
    | _ => rfl
  | .map as, b => by
    cases b with
    | map bs => exact sameFields_comm as bs
    | _ => rfl
  | .float x, b => by
    cases b with
    | float y => exact float_beq_comm x y
    | _ => rfl
  | .string s, b => by
    cases b with
    | string t => exact BEq.comm
    | _ => rfl
  | .integer n, b => by
    cases b with
    | integer m => exact BEq.comm
    | _ => rfl
  | .bool x, b => by
    cases b with
    | bool y => exact BEq.comm
    | _ => rfl
  | .null, b => by cases b <;> rfl

theorem sameItems_comm : ∀ as bs : List Value, sameItems as bs = sameItems bs as
  | [], [] => rfl
  | [], _ :: _ => rfl
  | _ :: _, [] => rfl
  | a :: as, b :: bs => by rw [sameItems, sameItems, same_comm a b, sameItems_comm as bs]

theorem sameFields_comm : ∀ as bs : List (String × Value), sameFields as bs = sameFields bs as
  | [], [] => rfl
  | [], _ :: _ => rfl
  | _ :: _, [] => rfl
  | (name, a) :: as, (other, b) :: bs => by
    rw [sameFields, sameFields, same_comm a b, sameFields_comm as bs, BEq.comm (a := name)]

end

/-! ## Records -/

section Fields

variable {as bs : Fields Value}

theorem keys_eq_of_sameFields (h : sameFields as bs = true) : as.keys = bs.keys := by
  induction as generalizing bs with
  | nil =>
    cases bs with
    | nil => rfl
    | cons => cases h
  | cons a as ih =>
    cases bs with
    | nil => cases h
    | cons b bs =>
      simp only [sameFields, Bool.and_eq_true, beq_iff_eq] at h
      obtain ⟨⟨hname, -⟩, hrest⟩ := h
      exact congrArg₂ List.cons hname (ih hrest)

/-- Fields of the same names are equal if each one is found with an equal value. -/
theorem sameFields_iff_find? (hkeys : as.keys = bs.keys) (hdistinct : as.keys.Nodup) :
    sameFields as bs = true ↔
      ∀ field ∈ as, (bs.find? field.1).any (field.2.same ·) = true := by
  induction as generalizing bs with
  | nil =>
    cases bs with
    | nil => exact iff_of_true rfl (List.forall_mem_nil _)
    | cons => cases hkeys
  | cons a as ih =>
    cases bs with
    | nil => cases hkeys
    | cons b bs =>
      obtain ⟨name, value⟩ := a
      obtain ⟨other, old⟩ := b
      obtain ⟨hname, hrest⟩ := List.cons.inj hkeys
      obtain ⟨hfresh, hdistinct⟩ := List.nodup_cons.1 hdistinct
      obtain rfl : name = other := hname
      -- the other fields have other names, so the first one does not hide them
      have hfind : ∀ field ∈ as,
          Fields.find? field.1 ((name, old) :: bs) = Fields.find? field.1 bs := by
        intro field hfield
        have hne : name ≠ field.1 := fun heq => hfresh (List.mem_map.2 ⟨field, hfield, heq.symm⟩)
        exact if_neg hne
      have hhead : Fields.find? name ((name, old) :: bs) = some old := if_pos rfl
      rw [sameFields, Bool.and_eq_true, beq_self_eq_true, Bool.true_and, ih hrest hdistinct,
        List.forall_mem_cons, hhead, Option.any_some]
      refine and_congr_right fun _ => forall₂_congr fun field hfield => ?_
      rw [hfind field hfield]

end Fields

/-- Records are equal if they have the same number of fields and each field of the one is found with
an equal value in the other. -/
theorem map_beq_map (as bs : NameMap Value) :
    (Value.map as.entries == Value.map bs.entries) =
      (as.size == bs.size &&
        as.entries.all fun field => (bs.find? field.1).any (field.2 == ·)) := by
  have hsame : (Value.map as.entries == Value.map bs.entries) =
      sameFields as.entries bs.entries := rfl
  have hnodup := as.sorted.nodup_keys
  rw [hsame, Bool.eq_iff_iff, Bool.and_eq_true, beq_iff_eq, List.all_eq_true]
  constructor
  · intro h
    have hkeys := keys_eq_of_sameFields h
    have hlength := congrArg List.length hkeys
    rw [Fields.keys, Fields.keys, List.length_map, List.length_map] at hlength
    exact ⟨hlength, (sameFields_iff_find? hkeys hnodup).1 h⟩
  · rintro ⟨hsize, hfound⟩
    have hkeys : as.entries.keys = bs.entries.keys := by
      refine as.sorted.keys_eq_of_length_eq bs.sorted hsize fun field hfield => ?_
      obtain ⟨value, hvalue, -⟩ := (Option.any_eq_true _ _).1 (hfound field hfield)
      exact Option.isSome_iff_exists.2 ⟨value, hvalue⟩
    exact (sameFields_iff_find? hkeys hnodup).2 hfound

/-! ## Values without floating-point numbers -/

/-- The values are of one kind and have the same parts: lists the same items in order, records the
same names, each with the same value in both. -/
inductive Alike : Value → Value → Prop
  | null : Alike .null .null
  | string (s : String) : Alike (.string s) (.string s)
  | integer (n : Int64) : Alike (.integer n) (.integer n)
  | bool (b : Bool) : Alike (.bool b) (.bool b)
  | list {as bs : List Value} (hlength : as.length = bs.length)
      (hitems : ∀ i (ha : i < as.length) (hb : i < bs.length), Alike as[i] bs[i]) :
      Alike (.list as) (.list bs)
  | map {as bs : Fields Value} (hnames : ∀ name, name ∈ as.keys ↔ name ∈ bs.keys)
      (hvalues : ∀ name a b, as.find? name = some a → bs.find? name = some b → Alike a b) :
      Alike (.map as) (.map bs)

variable {a b : Value}

theorem IsPlain.alike_refl (h : a.IsPlain) : a.Alike a := by
  induction h with
  | null => exact .null
  | string s => exact .string s
  | integer n => exact .integer n
  | bool b => exact .bool b
  | list _ ih => exact .list rfl fun i hi _ => ih _ (List.getElem_mem hi)
  | map _ _ ih =>
    refine .map (fun _ => Iff.rfl) fun name a b ha hb => ?_
    rw [ha] at hb
    obtain rfl := Option.some.inj hb
    exact ih _ (Fields.mem_of_find? ha)

/-- Values that are alike are the same, as the fields of records are in order. -/
theorem Alike.eq (h : a.Alike b) (ha : a.IsPlain) (hb : b.IsPlain) : a = b := by
  induction h with
  | null => rfl
  | string s => rfl
  | integer n => rfl
  | bool b => rfl
  | list hlength _ ih =>
    cases ha with
    | list ha =>
      cases hb with
      | list hb =>
        refine congrArg Value.list (List.ext_getElem hlength fun i hi hi' => ?_)
        exact ih i hi hi' (ha _ (List.getElem_mem hi)) (hb _ (List.getElem_mem hi'))
  | @map as bs hnames _ ih =>
    cases ha with
    | map hsorted ha =>
      cases hb with
      | map hsorted' hb =>
        refine congrArg Value.map (hsorted.ext hsorted' fun name => ?_)
        by_cases hname : name ∈ as.keys
        · obtain ⟨value, hvalue⟩ := Fields.mem_keys_iff.1 hname
          obtain ⟨other, hother⟩ := Fields.mem_keys_iff.1 ((hnames name).1 hname)
          rw [hvalue, hother, ih name value other hvalue hother
            (ha _ (Fields.mem_of_find? hvalue)) (hb _ (Fields.mem_of_find? hother))]
        · rw [Fields.find?_eq_none_iff.2 hname,
            Fields.find?_eq_none_iff.2 fun h => hname ((hnames name).2 h)]

theorem sameItems_iff {as bs : List Value}
    (h : ∀ a ∈ as, ∀ b ∈ bs, a.same b = true ↔ a = b) : sameItems as bs = true ↔ as = bs := by
  induction as generalizing bs with
  | nil => cases bs <;> simp [sameItems]
  | cons a as ih =>
    cases bs with
    | nil => simp [sameItems]
    | cons b bs =>
      have hrest : sameItems as bs = true ↔ as = bs := ih fun a ha b hb =>
        h a (List.mem_cons_of_mem _ ha) b (List.mem_cons_of_mem _ hb)
      rw [sameItems, Bool.and_eq_true, h a List.mem_cons_self b List.mem_cons_self, hrest,
        List.cons.injEq]

theorem sameFields_iff {as bs : Fields Value}
    (h : ∀ a ∈ as, ∀ b ∈ bs, a.2.same b.2 = true ↔ a.2 = b.2) :
    sameFields as bs = true ↔ as = bs := by
  induction as generalizing bs with
  | nil => cases bs <;> simp [sameFields]
  | cons a as ih =>
    cases bs with
    | nil => simp [sameFields]
    | cons b bs =>
      have hrest : sameFields as bs = true ↔ as = bs := ih fun a ha b hb =>
        h a (List.mem_cons_of_mem _ ha) b (List.mem_cons_of_mem _ hb)
      rw [sameFields, Bool.and_eq_true, Bool.and_eq_true, beq_iff_eq,
        h a List.mem_cons_self b List.mem_cons_self, hrest, List.cons.injEq, Prod.ext_iff]

/-- Without floating-point numbers, equal values are the same. -/
theorem IsPlain.same_iff (ha : a.IsPlain) (hb : b.IsPlain) : a.same b = true ↔ a = b := by
  induction ha generalizing b with
  | null => cases hb <;> simp [same]
  | string s => cases hb <;> simp [same]
  | integer n => cases hb <;> simp [same]
  | bool x => cases hb <;> simp [same]
  | list _ ih =>
    cases hb with
    | list hb =>
      have hitems := sameItems_iff fun a ha b hmem => ih a ha (hb b hmem)
      rw [same, hitems, Value.list.injEq]
    | _ => simp [same]
  | map _ _ ih =>
    cases hb with
    | map _ hb =>
      have hfields := sameFields_iff fun a ha b hmem => ih a ha (hb b hmem)
      rw [same, hfields, Value.map.injEq]
    | _ => simp [same]

theorem IsPlain.beq_iff_eq (ha : a.IsPlain) (hb : b.IsPlain) : (a == b) = true ↔ a = b :=
  ha.same_iff hb

theorem IsPlain.alike_iff (ha : a.IsPlain) (hb : b.IsPlain) : a.Alike b ↔ a = b :=
  ⟨fun h => h.eq ha hb, fun h => h ▸ ha.alike_refl⟩

/-- Equality of values is symmetric, whatever the values are, and records are equal if they have the
same number of fields and each field of the one is found with an equal value in the other. On values
without floating-point numbers it is an equivalence, and it holds if and only if the values are
alike. -/
theorem IsPlain.beq_laws (ha : a.IsPlain) (hb : b.IsPlain) :
    (∀ v w : Value, (v == w) = (w == v)) ∧
      (∀ as bs : NameMap Value, (Value.map as.entries == Value.map bs.entries) =
        (as.size == bs.size &&
          as.entries.all fun field => (bs.find? field.1).any (field.2 == ·))) ∧
      (a == a) = true ∧
      (∀ c : Value, (a == b) = true → (b == c) = true → (a == c) = true) ∧
      ((a == b) = true ↔ a.Alike b) := by
  refine ⟨same_comm, map_beq_map, (ha.beq_iff_eq ha).2 rfl, fun c hab hbc => ?_, ?_⟩
  · obtain rfl := (ha.beq_iff_eq hb).1 hab
    exact hbc
  · rw [ha.beq_iff_eq hb, ha.alike_iff hb]

/-- A record is without floating-point numbers if its fields are. -/
theorem IsPlain.ofFields {fields : List (String × Value)} (hdistinct : (fields.map Prod.fst).Nodup)
    (hplain : ∀ field ∈ fields, field.2.IsPlain) : (Value.ofFields fields).IsPlain :=
  .map (Fields.sorted_ofList fields) (isPlain_of_mem_ofList hdistinct hplain)

/-- It does not matter in which order the fields of the shipment are given, and within a list a
whole number is compared with a floating-point number alike on either side. -/
theorem shipment_alike :
    (Value.ofFields shipment).IsPlain ∧ (Value.ofFields shipment.reverse).IsPlain ∧
      (Value.ofFields shipment == Value.ofFields shipment.reverse) = true ∧
      (Value.ofFields shipment).Alike (Value.ofFields shipment.reverse) ∧
      (Value.list [.integer 1] == Value.list [.float 1.0]) =
        (Value.list [.float 1.0] == Value.list [.integer 1]) := by
  have hplain : (Value.ofFields shipment).IsPlain := .ofFields (by decide) shipment_isPlain
  have hreverse : (Value.ofFields shipment.reverse).IsPlain :=
    .ofFields (by decide) fun field hfield => shipment_isPlain field (List.mem_reverse.1 hfield)
  have hbeq : (Value.ofFields shipment == Value.ofFields shipment.reverse) = true := by
    decide +kernel
  obtain ⟨hcomm, -, -, -, halike⟩ := hplain.beq_laws hreverse
  exact ⟨hplain, hreverse, hbeq, halike.1 hbeq, hcomm _ _⟩

end Value

end StyledTemplate
