import StyledTemplate.Proofs.Json.Merge
import StyledTemplate.Settings.Load

/-!
# Settings that are given in part

A file need only give the settings that differ from the defaults. Whatever fields it gives, at the
top level and of the template engine, in any order and among any others with unknown names, the
settings that are loaded have these values there and the defaults everywhere else
(`Settings.loads_what_is_given`). The same holds over any other settings than the defaults.
-/

namespace StyledTemplate

open Json (Holds)

/-! ## Reading what is written -/

namespace Json

theorem uint64?_toNat (n : UInt64) : uint64? (.integer n.toNat) = some n := by
  have hread : natBelow? UInt64.size (.integer n.toNat) = some n.toNat :=
    natBelow?_without .nowhere n.toNat_lt_size
  rw [uint64?, hread, Option.map_some, UInt64.ofNat_toNat]

theorem array?_string (texts : List String) :
    array? string? (.array (texts.map .string)) = some texts := by
  have hread := array?_without_atoms .nowhere texts string?_without
  rwa [without_nowhere] at hread

end Json

/-! ## Settings of the template engine -/

namespace TemplateSettings

/-- What the settings are written as. -/
def members (s : TemplateSettings) : Fields Json :=
  [("strict", .bool s.strict), ("max_nesting_depth", .integer s.maxNestingDepth.toNat),
    ("image_not_found_marker", .string s.imageNotFoundMarker),
    ("dirs", .array (s.dirs.map .string)), ("coalesce_runs", .bool s.coalesceRuns)]

/-- The settings with the values of others for the fields whose names are chosen. -/
def withChosen (s : TemplateSettings) (chosen : String → Bool) (given : TemplateSettings) :
    TemplateSettings where
  strict := if chosen "strict" then given.strict else s.strict
  maxNestingDepth :=
    if chosen "max_nesting_depth" then given.maxNestingDepth else s.maxNestingDepth
  imageNotFoundMarker :=
    if chosen "image_not_found_marker" then given.imageNotFoundMarker else s.imageNotFoundMarker
  dirs := if chosen "dirs" then given.dirs else s.dirs
  coalesceRuns := if chosen "coalesce_runs" then given.coalesceRuns else s.coalesceRuns

theorem keys_members (s : TemplateSettings) : s.members.keys = fieldNames := rfl

theorem nodup_keys_members (s : TemplateSettings) : s.members.keys.Nodup := by
  rw [keys_members]
  decide

/-- Reading the settings with chosen fields of others laid over them. -/
theorem ofJson?_merge (s : TemplateSettings) {given : TemplateSettings} {chosen : String → Bool}
    {fields : Fields Json} (h : Holds given.members chosen fields) :
    ofJson? (Json.merge s.toJson (.object fields)) = some (s.withChosen chosen given) := by
  have hold (name : String) :
      Fields.find? name (Fields.ofList s.members) = s.members.find? name :=
    Fields.find?_of_ofList_eq rfl s.nodup_keys_members name
  have hgiven := given.nodup_keys_members
  rw [ofJson?, toJson, Json.merge_object]
  refine Json.recordParts?_bind fun parts hparts => ?_
  have hstrict : Json.fieldD parts "strict" Json.bool? false =
      some (s.withChosen chosen given).strict :=
    h.fieldD_merge hgiven hparts (hold "strict") rfl rfl rfl
  have hdepth : Json.fieldD parts "max_nesting_depth" Json.uint64? 64 =
      some (s.withChosen chosen given).maxNestingDepth :=
    h.fieldD_merge hgiven hparts (hold "max_nesting_depth") (Json.uint64?_toNat _) rfl
      (Json.uint64?_toNat _)
  have hmarker : Json.fieldD parts "image_not_found_marker" Json.string?
      "[IMAGE_NOT_FOUND:\x7bname\x7d]" = some (s.withChosen chosen given).imageNotFoundMarker :=
    h.fieldD_merge hgiven hparts (hold "image_not_found_marker") rfl rfl rfl
  have hdirs : Json.fieldD parts "dirs" (Json.array? Json.string?) [] =
      some (s.withChosen chosen given).dirs :=
    h.fieldD_merge hgiven hparts (hold "dirs") (Json.array?_string _) rfl (Json.array?_string _)
  have hcoalesce : Json.fieldD parts "coalesce_runs" Json.bool? true =
      some (s.withChosen chosen given).coalesceRuns :=
    h.fieldD_merge hgiven hparts (hold "coalesce_runs") rfl rfl rfl
  dsimp only
  rw [hstrict, hdepth, hmarker, hdirs, hcoalesce]
  rfl

theorem withChosen_none (s given : TemplateSettings) : s.withChosen (fun _ => false) given = s := rfl

/-- Laying no field over settings leaves them as they are. -/
theorem ofJson?_toJson (s : TemplateSettings) : ofJson? s.toJson = some s := by
  have hnone : Holds s.members (fun _ => false) [] := ⟨List.nodup_nil, [], by simp, nofun⟩
  have hread := s.ofJson?_merge hnone
  rwa [withChosen_none, toJson, Json.merge_object, Json.mergeFields] at hread

end TemplateSettings

/-! ## Settings of a program -/

namespace Settings

/-- What the settings are written as, the ones of the template engine being given as written. -/
def members (s : Settings) (template : Json) : Fields Json :=
  [("debug", .bool s.debug), ("log_level", .string s.logLevel), ("template", template)]

/-- The settings with the values of others for the fields whose names are chosen; of the settings of
the template engine only the chosen ones are taken over, too. -/
def withChosen (s : Settings) (chosen inner : String → Bool) (given : Settings) : Settings where
  debug := if chosen "debug" then given.debug else s.debug
  logLevel := if chosen "log_level" then given.logLevel else s.logLevel
  template :=
    if chosen "template" then s.template.withChosen inner given.template else s.template

/-- The value holds exactly the chosen fields of the settings, at the top level and of the template
engine, in any order, and perhaps others of unknown names at either level. -/
inductive Gives (given : Settings) (chosen inner : String → Bool) : Json → Prop
  | intro {fields template : Fields Json} (htemplate : Holds given.template.members inner template)
      (hfields : Holds (given.members (.object template)) chosen fields) :
      Gives given chosen inner (.object fields)

theorem nodup_keys_members (s : Settings) (template : Json) : (s.members template).keys.Nodup := by
  have hkeys : (s.members template).keys = ["debug", "log_level", "template"] := rfl
  rw [hkeys]
  decide

/-- Reading settings with chosen fields of others laid over them. -/
theorem ofJson?_merge (s : Settings) {given : Settings} {chosen inner : String → Bool} {upper : Json}
    (h : given.Gives chosen inner upper) :
    ofJson? (Json.merge s.toJson upper) = some (s.withChosen chosen inner given) := by
  cases h with
  | @intro fields template htemplate hfields =>
    have hgiven := given.nodup_keys_members (.object template)
    rw [ofJson?, toJson, Json.merge_object]
    refine Json.recordParts?_bind fun parts hparts => ?_
    have hdebug : Json.fieldD parts "debug" Json.bool? false =
        some (s.withChosen chosen inner given).debug :=
      hfields.fieldD_merge hgiven hparts rfl rfl rfl rfl
    have hlevel : Json.fieldD parts "log_level" Json.string? "info" =
        some (s.withChosen chosen inner given).logLevel :=
      hfields.fieldD_merge hgiven hparts rfl rfl rfl rfl
    have htemplate : Json.fieldD parts "template" TemplateSettings.ofJson? {} =
        some (s.withChosen chosen inner given).template :=
      hfields.fieldD_merge hgiven hparts rfl s.template.ofJson?_toJson rfl
        (s.template.ofJson?_merge htemplate)
    dsimp only
    rw [hdebug, hlevel, htemplate]
    rfl

/-- What settings are written as gives all their fields. -/
theorem gives_toJson (s : Settings) : s.Gives (fun _ => true) (fun _ => true) s.toJson := by
  have hinner : Holds s.template.members (fun _ => true) (Fields.ofList s.template.members) := by
    have hdistinct := s.template.nodup_keys_members
    have horder := Fields.ofList_perm hdistinct
    refine ⟨(horder.map Prod.fst).nodup_iff.2 hdistinct, [], ?_, nofun⟩
    rwa [List.filter_true, List.append_nil]
  refine .intro hinner ⟨s.nodup_keys_members _, [], ?_, nofun⟩
  rw [List.filter_true, List.append_nil]
  exact .refl _

theorem withChosen_all (s given : Settings) :
    s.withChosen (fun _ => true) (fun _ => true) given = given := rfl

/-- Settings that are given in part are loaded with the given values, whatever is given, in any
order and among any unknown fields, and with the defaults for everything else. It is the same over
any other settings. What settings are written as gives them back. An array takes the place of what
is below it, wherever it stands, and is not merged with it. -/
theorem loads_what_is_given {given : Settings} {chosen inner : String → Bool} {upper : Json}
    (h : given.Gives chosen inner upper) :
    overDefaults? upper = some (Settings.withChosen {} chosen inner given) ∧
    (∀ format text, SettingsFormat.parse? format text = some upper →
      ofText format text = .ok (Settings.withChosen {} chosen inner given)) ∧
    (∀ base : Settings,
      ofJson? (Json.merge base.toJson upper) = some (base.withChosen chosen inner given)) ∧
    overDefaults? given.toJson = some given ∧
    ∀ (base upper : Json) path items, upper.Distinct → upper.at? path = some (.array items) →
      (Json.merge base upper).at? path = some (.array items) := by
  have hload : overDefaults? upper = some (Settings.withChosen {} chosen inner given) :=
    ofJson?_merge {} h
  have hall := ofJson?_merge {} given.gives_toJson
  rw [withChosen_all] at hall
  refine ⟨hload, ?_, fun base => base.ofJson?_merge h, hall, ?_⟩
  · intro format text hparse
    rw [ofText, hparse]
    dsimp only
    rw [hload]
  · intro base upper path items hdistinct harray
    exact Json.at?_merge_array hdistinct harray

/-- Settings with a filter of their own, a marker and a directory. -/
def quiet : Settings where
  logLevel := "warn"
  template := { imageNotFoundMarker := "no \x7bname\x7d", dirs := ["letters"] }

/-- The filter and the marker as they may be written, with two fields that are not known. -/
def quietJson : Json :=
  .object [
    ("template", .object [
      ("theme", .null), ("image_not_found_marker", .string "no \x7bname\x7d")]),
    ("version", .integer 2), ("log_level", .string "warn")]

/-- The filter and the marker are loaded; there is no directory, for none is given. -/
theorem quiet_loaded :
    quiet.Gives (· != "debug") (· == "image_not_found_marker") quietJson ∧
      overDefaults? quietJson =
        some { logLevel := "warn", template := { imageNotFoundMarker := "no \x7bname\x7d" } } ∧
      overDefaults? quiet.toJson = some quiet := by
  have hinner : Holds quiet.template.members (· == "image_not_found_marker")
      [("theme", .null), ("image_not_found_marker", .string "no \x7bname\x7d")] :=
    ⟨by decide, [("theme", .null)], .swap _ _ [], by decide⟩
  have horder {a b c : String × Json} : [a, b, c].Perm ([c, a] ++ [b]) :=
    @List.perm_append_comm _ [a, b] [c]
  have hgives : quiet.Gives (· != "debug") (· == "image_not_found_marker") quietJson :=
    .intro hinner ⟨by decide, [("version", .integer 2)], horder, by decide⟩
  obtain ⟨hload, -, -, hall, -⟩ := loads_what_is_given hgives
  exact ⟨hgives, hload, hall⟩

end Settings

end StyledTemplate
