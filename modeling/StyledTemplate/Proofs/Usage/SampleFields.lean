import StyledTemplate.Bindings.Context
import StyledTemplate.Proofs.Fields
import StyledTemplate.Proofs.Text.Paths
import StyledTemplate.Usage.Sample

/-!
# Sample records

A sample record is made for some paths. Paths are stored in order, so a path that goes on after
another one is stored later, and where it goes on the text of the other one gives way to a record. So
each of the paths leads to its text if none of the others goes on after it
(`leads_sampleFields`), and to a record otherwise (`leadsToRecord_sampleFields`). This is what the
paths of placeholders are bound to by sample bindings (`Usage.get?_sample`).
-/

namespace StyledTemplate

open Text (segments GoesOn)

/-! ## Records on the way -/

/-- The path leads from one value to another one, through records only. -/
inductive Value.Leads : Value → List String → Value → Prop
  | here (v : Value) : Leads v [] v
  | field {fields : Fields Value} {segment : String} {v part : Value} {path : List String}
      (hfind : fields.find? segment = some v) (h : v.Leads path part) :
      Leads (.map fields) (segment :: path) part

/-- The path leads to a record that is not empty. -/
def Value.LeadsToRecord (v : Value) (path : List String) : Prop :=
  ∃ fields, fields ≠ [] ∧ v.Leads path (.map fields)

theorem Value.Leads.partAt?_eq {v part : Value} {path : List String} (h : v.Leads path part) :
    v.partAt? path = some part := by
  induction h with
  | here v => rfl
  | field hfind _ ih =>
    rw [partAt?, part?, hfind]
    exact ih

/-! ## Storing a value -/

/-- Whatever is stored below a path, one field changes. -/
theorem exists_insertAt_cons (value : Value) (segment : String) (rest : List String)
    (fields : Fields Value) :
    ∃ stored, insertAt value (segment :: rest) fields = fields.insert segment stored := by
  cases rest with
  | nil => exact ⟨value, rfl⟩
  | cons next rest => exact ⟨_, rfl⟩

theorem insertAt_ne_nil (value : Value) {path : List String} (h : path ≠ [])
    (fields : Fields Value) : insertAt value path fields ≠ [] := by
  obtain ⟨segment, rest, rfl⟩ := List.exists_cons_of_ne_nil h
  obtain ⟨stored, hstored⟩ := exists_insertAt_cons value segment rest fields
  rw [hstored]
  exact fields.insert_ne_nil segment stored

theorem insertAt_sorted (value : Value) (path : List String) {fields : Fields Value}
    (h : fields.Sorted) : (insertAt value path fields).Sorted := by
  cases path with
  | nil => exact h
  | cons segment rest =>
    obtain ⟨stored, hstored⟩ := exists_insertAt_cons value segment rest fields
    rw [hstored]
    exact h.insert segment stored

/-- Under the first segment of a longer path there is a record, with what has been in it. -/
theorem find?_insertAt_cons (value : Value) (segment : String) {rest : List String}
    (hrest : rest ≠ []) (fields : Fields Value) :
    (insertAt value (segment :: rest) fields).find? segment =
      some (.map (insertAt value rest (((fields.find? segment).bind Value.fields?).getD []))) := by
  obtain ⟨next, rest, rfl⟩ := List.exists_cons_of_ne_nil hrest
  exact (fields.find?_insert _ _ _).trans (if_pos rfl)

theorem leads_insertAt (value : Value) {path : List String} (hpath : path ≠ [])
    (fields : Fields Value) : (Value.map (insertAt value path fields)).Leads path value := by
  induction path generalizing fields with
  | nil => exact absurd rfl hpath
  | cons segment rest ih =>
    by_cases hrest : rest = []
    · subst hrest
      have hfind : (insertAt value [segment] fields).find? segment = some value :=
        (fields.find?_insert _ _ _).trans (if_pos rfl)
      exact .field hfind (.here value)
    · exact .field (find?_insertAt_cons value segment hrest fields) (ih hrest _)

/-- Storing a value below a path makes a record of what the path leads to. -/
theorem leadsToRecord_insertAt (value : Value) (path : List String) (segment : String)
    (rest : List String) (fields : Fields Value) :
    (Value.map (insertAt value (path ++ segment :: rest) fields)).LeadsToRecord path := by
  induction path generalizing fields with
  | nil => exact ⟨_, insertAt_ne_nil value (List.cons_ne_nil segment rest) fields, .here _⟩
  | cons first path ih =>
    obtain ⟨inner, hinner, hleads⟩ :=
      ih (((fields.find? first).bind Value.fields?).getD [])
    have hbelow : path ++ segment :: rest ≠ [] := by simp
    exact ⟨inner, hinner, .field (find?_insertAt_cons value first hbelow fields) hleads⟩

/-- Storing a value does not change what lies neither above nor below it. -/
theorem Value.Leads.insertAt {fields : Fields Value} {path other : List String} {part : Value}
    (h : (Value.map fields).Leads other part) (hpath : ¬ path <+: other)
    (hother : ¬ other <+: path) (value : Value) :
    (Value.map (StyledTemplate.insertAt value path fields)).Leads other part := by
  induction path generalizing fields other with
  | nil => exact absurd List.nil_prefix hpath
  | cons segment rest ih =>
    cases h with
    | here => exact absurd List.nil_prefix hother
    | @field _ key v _ below hfind h =>
      by_cases hkey : segment = key
      · subst hkey
        have hbelow : ¬ rest <+: below := fun hbegins =>
          hpath (List.cons_prefix_cons.2 ⟨rfl, hbegins⟩)
        have habove : ¬ below <+: rest := fun hbegins =>
          hother (List.cons_prefix_cons.2 ⟨rfl, hbegins⟩)
        have hrest : rest ≠ [] := by
          rintro rfl
          exact hbelow List.nil_prefix
        refine .field (find?_insertAt_cons value segment hrest fields) ?_
        rw [hfind]
        cases h with
        | here => exact absurd List.nil_prefix habove
        | field hnext h => exact ih (.field hnext h) hbelow habove
      · obtain ⟨stored, hstored⟩ := exists_insertAt_cons value segment rest fields
        refine .field ?_ h
        rw [hstored, Fields.find?_insert, if_neg hkey]
        exact hfind

/-- A record stays one, unless a value is stored there or above it. -/
theorem Value.LeadsToRecord.insertAt {fields : Fields Value} {path other : List String}
    (h : (Value.map fields).LeadsToRecord other) (hpath : ¬ path <+: other) (value : Value) :
    (Value.map (StyledTemplate.insertAt value path fields)).LeadsToRecord other := by
  by_cases hother : other <+: path
  · obtain ⟨_ | ⟨segment, rest⟩, rfl⟩ := hother
    · exact absurd (by simp) hpath
    · exact leadsToRecord_insertAt value other segment rest fields
  · obtain ⟨inner, hinner, hleads⟩ := h
    exact ⟨inner, hinner, hleads.insertAt hpath hother value⟩

/-! ## The record for some paths -/

/-- Stores the texts of some paths, one after the other. -/
def insertTexts (text : String → String) (paths : List String) (fields : Fields Value) :
    Fields Value :=
  paths.foldl (fun fields path => insertAt (.string (text path)) (segments path) fields) fields

theorem sampleFields_append_cons (text : String → String) (before : List String) (path : String)
    (later : List String) : sampleFields text (before ++ path :: later) =
      insertTexts text later
        (insertAt (.string (text path)) (segments path) (sampleFields text before)) := by
  rw [sampleFields, List.foldl_append, List.foldl_cons]
  rfl

theorem Value.Leads.insertTexts (text : String → String) {fields : Fields Value}
    {path : List String} {part : Value} (h : (Value.map fields).Leads path part)
    {paths : List String}
    (hpaths : ∀ p ∈ paths, ¬ segments p <+: path ∧ ¬ path <+: segments p) :
    (Value.map (StyledTemplate.insertTexts text paths fields)).Leads path part := by
  induction paths generalizing fields with
  | nil => exact h
  | cons p paths ih =>
    obtain ⟨habove, hbelow⟩ := hpaths p List.mem_cons_self
    exact ih (h.insertAt habove hbelow _) fun q hq => hpaths q (List.mem_cons_of_mem _ hq)

theorem Value.LeadsToRecord.insertTexts (text : String → String) {fields : Fields Value}
    {path : List String} (h : (Value.map fields).LeadsToRecord path) {paths : List String}
    (hpaths : ∀ p ∈ paths, ¬ segments p <+: path) :
    (Value.map (StyledTemplate.insertTexts text paths fields)).LeadsToRecord path := by
  induction paths generalizing fields with
  | nil => exact h
  | cons p paths ih =>
    exact ih (h.insertAt (hpaths p List.mem_cons_self) _) fun q hq =>
      hpaths q (List.mem_cons_of_mem _ hq)

/-- A path of some ordered ones splits them into the paths before it and the ones behind it, and no
path behind it is, segment by segment, the beginning of it. -/
theorem exists_split_of_mem {paths : List String} (hpaths : paths.Pairwise (· < ·)) {path : String}
    (hpath : path ∈ paths) : ∃ before later, paths = before ++ path :: later ∧
      ∀ q ∈ later, q ≠ path ∧ ¬ segments q <+: segments path := by
  obtain ⟨before, later, rfl⟩ := List.append_of_mem hpath
  rw [List.pairwise_append, List.pairwise_cons] at hpaths
  obtain ⟨-, ⟨hlater, -⟩, -⟩ := hpaths
  refine ⟨before, later, rfl, fun q hq => ⟨?_, fun hbegins => ?_⟩⟩
  · rintro rfl
    exact String.lt_irrefl _ (hlater q hq)
  · exact String.not_le.2 (hlater q hq) (Text.le_of_segments_prefix hbegins)

/-- A path that no other one goes on after leads to its text. -/
theorem leads_sampleFields (text : String → String) {paths : List String}
    (hpaths : paths.Pairwise (· < ·)) {path : String} (hpath : path ∈ paths)
    (hlast : ∀ q ∈ paths, ¬ GoesOn path q) :
    (Value.map (sampleFields text paths)).Leads (segments path) (.string (text path)) := by
  obtain ⟨before, later, rfl, hlater⟩ := exists_split_of_mem hpaths hpath
  have hstored := leads_insertAt (.string (text path)) (Text.segments_ne_nil path)
    (sampleFields text before)
  rw [sampleFields_append_cons]
  refine hstored.insertTexts text fun q hq => ⟨(hlater q hq).2, fun hbegins => ?_⟩
  have hmem : q ∈ before ++ path :: later := by simp [hq]
  exact hlast q hmem (Text.goesOn_iff.2 ⟨hbegins, (hlater q hq).1.symm⟩)

/-- Where one of the paths goes on, there is a record. -/
theorem leadsToRecord_sampleFields (text : String → String) {paths : List String}
    (hpaths : paths.Pairwise (· < ·)) {path q : String} (hq : q ∈ paths) (h : GoesOn path q) :
    (Value.map (sampleFields text paths)).LeadsToRecord (segments path) := by
  obtain ⟨before, later, rfl, hlater⟩ := exists_split_of_mem hpaths hq
  obtain ⟨segment, rest, hsegments⟩ := h
  have hstored := leadsToRecord_insertAt (.string (text q)) (segments path) segment rest
    (sampleFields text before)
  rw [← hsegments] at hstored
  rw [sampleFields_append_cons]
  refine hstored.insertTexts text fun r hr hbegins => (hlater r hr).2 (hbegins.trans ?_)
  exact ⟨segment :: rest, hsegments.symm⟩

/-- Every path that a sample record is made for leads to something that counts as true and is no
list, if no text is empty. -/
theorem exists_leads_sampleFields {text : String → String} (htext : ∀ path, text path ≠ "")
    {paths : List String} (hpaths : paths.Pairwise (· < ·)) {path : String} (hpath : path ∈ paths) :
    ∃ part, (Value.map (sampleFields text paths)).Leads (segments path) part ∧
      part.isTruthy = true ∧ Context.entriesOf? part = none := by
  by_cases hlast : ∀ q ∈ paths, ¬ GoesOn path q
  · refine ⟨_, leads_sampleFields text hpaths hpath hlast, ?_, rfl⟩
    simpa [Value.isTruthy] using htext path
  · push Not at hlast
    obtain ⟨q, hq, hgoesOn⟩ := hlast
    obtain ⟨fields, hfields, hleads⟩ := leadsToRecord_sampleFields text hpaths hq hgoesOn
    refine ⟨.map fields, hleads, ?_, rfl⟩
    simpa [Value.isTruthy] using hfields

theorem sampleFields_sorted (text : String → String) (paths : List String) :
    (sampleFields text paths).Sorted := by
  suffices ∀ fields : Fields Value, fields.Sorted → (insertTexts text paths fields).Sorted from
    this [] List.Pairwise.nil
  induction paths with
  | nil => exact fun fields h => h
  | cons path paths ih => exact fun fields h => ih _ (insertAt_sorted _ _ h)

/-! ## What placeholders are bound to -/

theorem sampleText_eq (path : String) :
    sampleText path = "sample_" ++ (segments path).getLast (Text.segments_ne_nil path) := by
  rw [sampleText, Text.leaf, List.getLastD_eq_getLast?,
    List.getLast?_eq_some_getLast (Text.segments_ne_nil path)]
  rfl

namespace Usage

theorem find?_sample_values (u : Usage) (name : String) :
    u.sample.values.find? name = (sampleFields sampleText u.placeholders.keys).find? name :=
  NameMap.find?_ofList (sampleFields_sorted _ _) name

/-- Below its first segment, a path of the sample record is looked up among the variables. -/
theorem get?_of_leads (u : Usage) (strict : Bool) {path : String}
    (hpath : ∀ segment ∈ segments path, segment ≠ "") {part : Value}
    (h : (Value.map (sampleFields sampleText u.placeholders.keys)).Leads (segments path) part) :
    Context.get? { bindings := u.sample, strict } path = some part := by
  obtain ⟨rest, hsegments, hlookup⟩ := Text.exists_segments_eq hpath
  rw [hsegments] at h
  cases h with
  | field hfind h =>
    rw [← u.find?_sample_values] at hfind
    simp only [Context.get?, Context.scoped?, List.findSome?_nil, hfind, hlookup, h.partAt?_eq]

/-- In the sample bindings every placeholder is bound: to a text with the last segment of its path,
or to a record if the path of another placeholder goes on after it. -/
theorem get?_sample (u : Usage) (strict : Bool) {path : String}
    (hrecorded : u.placeholders.contains path = true)
    (hpath : ∀ segment ∈ segments path, segment ≠ "") :
    ((∀ q, u.placeholders.contains q = true → ¬ GoesOn path q) →
      Context.get? { bindings := u.sample, strict } path =
        some (.string ("sample_" ++ (segments path).getLast (Text.segments_ne_nil path)))) ∧
    ((∃ q, u.placeholders.contains q = true ∧ GoesOn path q) →
      ∃ fields, Context.get? { bindings := u.sample, strict } path = some (.map fields)) := by
  have hsorted := u.placeholders.keys_sorted
  constructor
  · intro hlast
    have hleads := leads_sampleFields sampleText hsorted (NameMap.mem_keys_of_contains hrecorded)
      fun q hq => hlast q (NameMap.contains_of_mem_keys hq)
    rw [u.get?_of_leads strict hpath hleads, sampleText_eq]
  · rintro ⟨q, hq, hgoesOn⟩
    obtain ⟨fields, -, hleads⟩ := leadsToRecord_sampleFields sampleText hsorted
      (NameMap.mem_keys_of_contains hq) hgoesOn
    exact ⟨fields, u.get?_of_leads strict hpath hleads⟩

end Usage

/-- A badge with all there is to know of a guest, and with the town apart from it. -/
def badgeUsage : Usage :=
  .ofBlocks "badge" [.placeholder "guest" {} {}, .placeholder "event" {} {},
    .placeholder "guest.town" {} {}]

/-- The town takes the place of the text for the guest. -/
theorem badge_samples :
    Context.get? { bindings := badgeUsage.sample } "event" = some (.string "sample_event") ∧
      ∃ fields, Context.get? { bindings := badgeUsage.sample } "guest" = some (.map fields) := by
  have hlast : ∀ q, badgeUsage.placeholders.contains q = true → ¬ GoesOn "event" q := by
    have hkeys : ∀ q ∈ badgeUsage.placeholders.keys, ¬ GoesOn "event" q := by decide +kernel
    exact fun q hq => hkeys q (NameMap.mem_keys_of_contains hq)
  have htown : badgeUsage.placeholders.contains "guest.town" = true ∧
      GoesOn "guest" "guest.town" := by decide +kernel
  exact ⟨(badgeUsage.get?_sample false (by decide) (by decide)).1 hlast,
    (badgeUsage.get?_sample false (by decide) (by decide)).2 ⟨"guest.town", htown⟩⟩

end StyledTemplate
