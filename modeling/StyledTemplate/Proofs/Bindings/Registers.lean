import Mathlib.Data.List.Induction
import Mathlib.Logic.Function.Basic
import StyledTemplate.Bindings.Record
import StyledTemplate.Proofs.Fields

/-!
# Bindings after any history

A program keeps several bindings, each in a register of its own, writes to them in any order, merges
them into each other and clears them. After all of it a name is bound in a table of a register to
what the latest operation that wrote it there has written, unless the register has been cleared since
(`Registers.bound_iff_lastWritten`). Merging writes what is bound in the other register by then, so
what becomes of that register later does not matter (`Registers.run_filter`). Merging is associative
and idempotent, and empty bindings are neutral on both sides (`Bindings.merge_assoc`,
`Bindings.merge_self`, `Bindings.empty_merge`, `Bindings.merge_empty`).
-/

namespace StyledTemplate

namespace Bindings

/-! ## Tables -/

/-- What a table of bindings holds. -/
inductive Kind where
  | values
  | lists
  | conditions
  | images
  deriving DecidableEq, Repr

/-- All tables. -/
def Kind.all : List Kind := [.values, .lists, .conditions, .images]

theorem Kind.mem_all (kind : Kind) : kind ∈ all := by
  cases kind <;> decide

/-- What a name is bound to in a table. -/
def Kind.Content : Kind → Type
  | .values => Value
  | .lists => List Value
  | .conditions => Bool
  | .images => ImageBinding

/-- The table of a kind. -/
def table (b : Bindings) : (kind : Kind) → NameMap kind.Content
  | .values => b.values
  | .lists => b.lists
  | .conditions => b.conditions
  | .images => b.images

section Merge

variable {b c : Bindings}

/-- Bindings with the same tables are equal. -/
theorem ext_table (h : ∀ kind, b.table kind = c.table kind) : b = c := by
  obtain ⟨values, lists, conditions, images⟩ := b
  obtain ⟨values', lists', conditions', images'⟩ := c
  have hvalues : values = values' := h .values
  have hlists : lists = lists' := h .lists
  have hconditions : conditions = conditions' := h .conditions
  have himages : images = images' := h .images
  rw [hvalues, hlists, hconditions, himages]

theorem ext_find? (h : ∀ kind name, (b.table kind).find? name = (c.table kind).find? name) :
    b = c :=
  ext_table fun kind => NameMap.ext_find? (h kind)

theorem table_empty (kind : Kind) : empty.table kind = NameMap.empty := by
  cases kind <;> rfl

theorem find?_table_empty (kind : Kind) (name : String) : (empty.table kind).find? name = none := by
  rw [table_empty]
  rfl

theorem table_merge (b other : Bindings) (kind : Kind) :
    (b.merge other).table kind = (b.table kind).union (other.table kind) := by
  cases kind <;> rfl

/-- What is bound in the other bindings wins. -/
theorem find?_table_merge (b other : Bindings) (kind : Kind) (name : String) :
    ((b.merge other).table kind).find? name =
      ((other.table kind).find? name).or ((b.table kind).find? name) := by
  rw [table_merge, NameMap.union, NameMap.find?_insertAll, (other.table kind).sorted.lastValue?_eq]
  rfl

theorem merge_assoc (a b c : Bindings) : (a.merge b).merge c = a.merge (b.merge c) := by
  refine ext_find? fun kind name => ?_
  rw [find?_table_merge, find?_table_merge, find?_table_merge, find?_table_merge, Option.or_assoc]

theorem merge_self (b : Bindings) : b.merge b = b := by
  refine ext_find? fun kind name => ?_
  rw [find?_table_merge, Option.or_self]

theorem empty_merge (b : Bindings) : empty.merge b = b := by
  refine ext_find? fun kind name => ?_
  rw [find?_table_merge, find?_table_empty, Option.or_none]

theorem merge_empty (b : Bindings) : b.merge empty = b := by
  refine ext_find? fun kind name => ?_
  rw [find?_table_merge, find?_table_empty, Option.none_or]

end Merge

/-! ## Operations -/

/-- What can be done to the bindings in a register. -/
inductive Operation where
  /-- Bind a variable. -/
  | setValue (name : String) (value : Value)
  /-- Bind variables one after the other. -/
  | setValues (pairs : List (String × Value))
  /-- Bind a list. -/
  | setList (name : String) (entries : List Value)
  /-- Bind a condition. -/
  | setCondition (name : String) (flag : Bool)
  /-- Bind an image in a file. -/
  | setImageFile (name path : String) (placement : ImagePlacement)
  /-- Bind an image by its bytes. -/
  | setImageBytes (name : String) (data : List UInt8) (placement : ImagePlacement)
  /-- Bind an image with a text that stands for it and a title. -/
  | setImageDetails (name : String) (source : ImageSource) (placement : ImagePlacement)
      (altText title : String)
  /-- Bind the fields of a record. -/
  | bindFields (fields : List (String × Value))
  /-- Merge in what is bound in a register. -/
  | merge (other : String)
  /-- Remove everything that is bound. -/
  | clear

end Bindings

/-- The bindings in all registers. -/
abbrev Registers := String → Bindings

/-- An operation on a register. -/
structure RegisterStep where
  /-- The register. -/
  register : String
  /-- What is done to the bindings in it. -/
  operation : Bindings.Operation

namespace Bindings.Operation

/-- The bindings `b` after an operation, the registers being what they are by then. -/
def perform (registers : Registers) (b : Bindings) : Operation → Bindings
  | setValue name value => b.setValue name value
  | setValues pairs => b.setValues pairs
  | setList name entries => b.setList name entries
  | setCondition name flag => b.setCondition name flag
  | setImageFile name path placement => b.setImage name { source := .path path, placement }
  | setImageBytes name data placement => b.setImage name { source := .bytes data, placement }
  | setImageDetails name source placement altText title =>
    b.setImage name { source, placement, altText := some altText, title := some title }
  | bindFields fields => b.bindFields fields
  | merge other => b.merge (registers other)
  | clear => empty

/-- The tables that an operation is about. -/
def tables : Operation → List Kind
  | setValue .. | setValues _ | bindFields _ => [.values]
  | setList .. => [.lists]
  | setCondition .. => [.conditions]
  | setImageFile .. | setImageBytes .. | setImageDetails .. => [.images]
  | merge _ | clear => Kind.all

/-- What an operation writes to a table, one after the other. -/
def writes (registers : Registers) : Operation → (kind : Kind) → List (String × kind.Content)
  | setValue name value, .values => [(name, value)]
  | setValues pairs, .values => pairs
  | bindFields fields, .values => fields.flatMap flattenField
  | setList name entries, .lists => [(name, entries)]
  | setCondition name flag, .conditions => [(name, flag)]
  | setImageFile name path placement, .images => [(name, { source := .path path, placement })]
  | setImageBytes name data placement, .images => [(name, { source := .bytes data, placement })]
  | setImageDetails name source placement altText title, .images =>
    [(name, { source, placement, altText := some altText, title := some title })]
  | merge other, kind => ((registers other).table kind).entries
  | _, _ => []

/-- An operation writes to each table what it has to write there, and does nothing else. -/
theorem table_perform {registers : Registers} {b : Bindings} {operation : Operation}
    (h : operation ≠ clear) (kind : Kind) : (operation.perform registers b).table kind =
      (b.table kind).insertAll (operation.writes registers kind) := by
  cases operation with
  | clear => exact absurd rfl h
  | merge other => exact table_merge b (registers other) kind
  | _ => cases kind <;> rfl

theorem writes_eq_nil {registers : Registers} {operation : Operation} {kind : Kind}
    (h : kind ∉ operation.tables) : operation.writes registers kind = [] := by
  cases operation with
  | merge other => exact absurd kind.mem_all h
  | clear => cases kind <;> rfl
  | _ => cases kind <;> first | rfl | exact absurd List.mem_cons_self h

/-- Tables that an operation is not about stay as they are. -/
theorem table_perform_of_not_mem {registers : Registers} {b : Bindings} {operation : Operation}
    {kind : Kind} (h : kind ∉ operation.tables) :
    (operation.perform registers b).table kind = b.table kind := by
  have hclear : operation ≠ clear := by
    rintro rfl
    exact h kind.mem_all
  rw [table_perform hclear, writes_eq_nil h]
  rfl

end Bindings.Operation

/-! ## Histories -/

namespace Registers

open Bindings (Kind Operation)

/-- All registers are empty. -/
def start : Registers := fun _ => Bindings.empty

/-- The registers after a step. -/
def after (registers : Registers) (step : RegisterStep) : Registers :=
  Function.update registers step.register
    (step.operation.perform registers (registers step.register))

/-- The registers after some steps, taken one after the other. -/
def run (registers : Registers) (steps : List RegisterStep) : Registers := steps.foldl after registers

/-- The steps that change what a name is bound to in a table of a register. -/
inductive Affects (registers : Registers) (register : String) (kind : Kind) (name : String) :
    RegisterStep → Prop
  | write {operation : Operation}
      (hmem : name ∈ (operation.writes registers kind).map Prod.fst) :
      Affects registers register kind name ⟨register, operation⟩
  | clear : Affects registers register kind name ⟨register, .clear⟩

/-- None of the steps, when they are taken one after the other, affects the name. -/
def LeaveAlone (registers : Registers) (register : String) (kind : Kind) (name : String)
    (steps : List RegisterStep) : Prop :=
  ∀ before step later, steps = before ++ step :: later →
    ¬ (registers.run before).Affects register kind name step

/-- Of the steps on the register that wrote the name to the table the latest one has written the
value, and since then neither has the name been written there nor has the register been cleared. -/
inductive LastWritten (register : String) (kind : Kind) (name : String) (value : kind.Content) :
    List RegisterStep → Prop
  | intro {before later : List RegisterStep} {operation : Operation}
      {earlier others : List (String × kind.Content)}
      (hwrites : operation.writes (start.run before) kind = earlier ++ (name, value) :: others)
      (hothers : name ∉ others.map Prod.fst)
      (hlater : (start.run (before ++ [⟨register, operation⟩])).LeaveAlone register kind name later) :
      LastWritten register kind name value (before ++ ⟨register, operation⟩ :: later)

section Steps

variable {registers : Registers} {register name : String} {kind : Kind} {value : kind.Content}
  {step : RegisterStep} {steps : List RegisterStep}

theorem run_append (registers : Registers) (steps later : List RegisterStep) :
    registers.run (steps ++ later) = (registers.run steps).run later := List.foldl_append

theorem run_concat (registers : Registers) (steps : List RegisterStep) (step : RegisterStep) :
    registers.run (steps ++ [step]) = (registers.run steps).after step :=
  run_append registers steps [step]

theorem after_of_ne (h : step.register ≠ register) : registers.after step register =
    registers register := Function.update_of_ne (Ne.symm h) _ _

theorem after_self (registers : Registers) (register : String) (operation : Operation) :
    registers.after ⟨register, operation⟩ register =
      operation.perform registers (registers register) := Function.update_self _ _ _

/-! ## One more step -/

theorem affects_iff : registers.Affects register kind name step ↔ step.register = register ∧
    (step.operation = .clear ∨ name ∈ (step.operation.writes registers kind).map Prod.fst) := by
  constructor
  · rintro (⟨hmem⟩ | -)
    · exact ⟨rfl, .inr hmem⟩
    · exact ⟨rfl, .inl rfl⟩
  · obtain ⟨target, operation⟩ := step
    rintro ⟨rfl, rfl | hmem⟩
    · exact .clear
    · exact .write hmem

/-- After a step a name is bound to what the step has written last, or to what it was bound to
before, if the step does not affect it. -/
theorem find?_after_iff : ((registers.after step register).table kind).find? name = some value ↔
    (step.register = register ∧
        lastValue? (step.operation.writes registers kind) name = some value) ∨
      (¬ registers.Affects register kind name step ∧
        ((registers register).table kind).find? name = some value) := by
  obtain ⟨target, operation⟩ := step
  rw [affects_iff]
  by_cases htarget : target = register
  · subst htarget
    rw [after_self]
    by_cases hclear : operation = .clear
    · subst hclear
      have hnone : ((Operation.clear.perform registers (registers target)).table kind).find? name =
          none := Bindings.find?_table_empty kind name
      have hwrites : Operation.clear.writes registers kind = [] := by cases kind <;> rfl
      have hlast : lastValue? ([] : List (String × kind.Content)) name = none := rfl
      simp [hnone, hwrites, hlast]
    · rw [Operation.table_perform hclear, NameMap.find?_insertAll, ← lastValue?_isSome_iff]
      cases lastValue? (operation.writes registers kind) name with
      | some written => simp
      | none => simp [hclear]
  · rw [after_of_ne htarget]
    simp [htarget]

/-- A list with an element behind it splits at that element or earlier. -/
theorem concat_eq_append_cons {α : Type} {xs before later : List α} {x y : α}
    (h : xs ++ [x] = before ++ y :: later) :
    (xs = before ∧ x = y ∧ later = []) ∨
      ∃ front, xs = before ++ y :: front ∧ later = front ++ [x] := by
  rcases List.eq_nil_or_concat later with rfl | ⟨front, last, rfl⟩
  · obtain ⟨hxs, hx⟩ := List.append_inj' h rfl
    exact .inl ⟨hxs, List.head_eq_of_cons_eq hx, rfl⟩
  · rw [List.concat_eq_append, ← List.cons_append, ← List.append_assoc] at h
    obtain ⟨hxs, hx⟩ := List.append_inj' h rfl
    obtain rfl := List.head_eq_of_cons_eq hx
    exact .inr ⟨front, hxs, List.concat_eq_append ..⟩

theorem not_nil_eq_append_cons {α : Type} {before later : List α} {y : α} :
    [] ≠ before ++ y :: later :=
  (List.append_ne_nil_of_right_ne_nil before (List.cons_ne_nil y later)).symm

theorem leaveAlone_nil : registers.LeaveAlone register kind name [] := by
  intro before step later h
  exact absurd h not_nil_eq_append_cons

theorem leaveAlone_concat_iff : registers.LeaveAlone register kind name (steps ++ [step]) ↔
    registers.LeaveAlone register kind name steps ∧
      ¬ (registers.run steps).Affects register kind name step := by
  constructor
  · intro h
    refine ⟨fun before other later hsplit => h before other (later ++ [step]) ?_,
      h steps step [] rfl⟩
    rw [hsplit, List.append_assoc, List.cons_append]
  · rintro ⟨hsteps, hstep⟩ before other later hsplit
    rcases concat_eq_append_cons hsplit with ⟨rfl, rfl, -⟩ | ⟨front, hfront, -⟩
    · exact hstep
    · exact hsteps before other front hfront

/-- The last value comes from the last step, or from an earlier one and the last step does not
affect the name. -/
theorem lastWritten_concat_iff : LastWritten register kind name value (steps ++ [step]) ↔
    (step.register = register ∧
        lastValue? (step.operation.writes (start.run steps) kind) name = some value) ∨
      (¬ (start.run steps).Affects register kind name step ∧
        LastWritten register kind name value steps) := by
  constructor
  · intro h
    generalize hall : steps ++ [step] = all at h
    cases h with
    | @intro before later operation earlier others hwrites hothers hlater =>
      rcases concat_eq_append_cons hall with ⟨rfl, rfl, -⟩ | ⟨front, rfl, rfl⟩
      · exact .inl ⟨rfl, lastValue?_eq_some_iff.2 ⟨earlier, others, hwrites, hothers⟩⟩
      · obtain ⟨hfront, hstep⟩ := leaveAlone_concat_iff.1 hlater
        rw [← run_append, ← List.append_cons] at hstep
        exact .inr ⟨hstep, .intro hwrites hothers hfront⟩
  · rintro (⟨rfl, hvalue⟩ | ⟨hstep, hbefore⟩)
    · obtain ⟨earlier, others, hwrites, hothers⟩ := lastValue?_eq_some_iff.1 hvalue
      exact .intro hwrites hothers leaveAlone_nil
    · cases hbefore with
      | @intro before later operation earlier others hwrites hothers hlater =>
        rw [List.append_cons, run_append] at hstep
        rw [List.append_assoc, List.cons_append]
        exact .intro hwrites hothers (leaveAlone_concat_iff.2 ⟨hlater, hstep⟩)

theorem not_lastWritten_nil : ¬ LastWritten register kind name value [] := by
  intro h
  generalize hnil : ([] : List RegisterStep) = steps at h
  cases h with
  | intro => exact not_nil_eq_append_cons hnil

/-- A name is bound to what has been written last: both sides come about in the same way, step by
step. -/
theorem bound_iff_lastWritten :
    ((start.run steps register).table kind).find? name = some value ↔
      LastWritten register kind name value steps := by
  induction steps using List.reverseRecOn with
  | nil =>
    have hnone : ((start.run [] register).table kind).find? name = none :=
      Bindings.find?_table_empty kind name
    rw [hnone]
    exact ⟨nofun, fun h => absurd h not_lastWritten_nil⟩
  | append_singleton steps step ih =>
    rw [run_concat, find?_after_iff, lastWritten_concat_iff, ih]

/-! ## Registers that do not matter -/

/-- None of the steps merges into a register that is kept one that is not. -/
def Closed (keep : String → Bool) (steps : List RegisterStep) : Prop :=
  ∀ step ∈ steps, keep step.register = true → ∀ other, step.operation = .merge other →
    keep other = true

/-- What an operation makes of bindings depends at most on a register that it merges in. -/
theorem perform_congr {registers registers' : Registers} {b : Bindings} {operation : Operation}
    (h : ∀ other, operation = .merge other → registers other = registers' other) :
    operation.perform registers b = operation.perform registers' b := by
  cases operation with
  | merge other => exact congrArg b.merge (h other rfl)
  | _ => rfl

/-- Steps on registers that are never merged into the ones that are kept can be left out. -/
theorem run_filter {keep : String → Bool} {registers registers' : Registers}
    (hsame : ∀ register, keep register = true → registers register = registers' register)
    (hclosed : Closed keep steps) (hkeep : keep register = true) :
    registers.run steps register =
      registers'.run (steps.filter fun step => keep step.register) register := by
  induction steps generalizing registers registers' with
  | nil => exact hsame register hkeep
  | cons step steps ih =>
    obtain ⟨hstep, hsteps⟩ := List.forall_mem_cons.1 hclosed
    obtain ⟨target, operation⟩ := step
    by_cases htarget : keep target = true
    · rw [List.filter_cons, if_pos htarget]
      refine ih (fun other hother => ?_) hsteps
      have hperform : operation.perform registers (registers target) =
          operation.perform registers' (registers' target) := by
        rw [hsame target htarget]
        exact perform_congr fun merged hmerge => hsame merged (hstep htarget merged hmerge)
      by_cases heq : target = other
      · subst heq
        rw [after_self, after_self, hperform]
      · rw [after_of_ne heq, after_of_ne heq, hsame other hother]
    · rw [List.filter_cons, if_neg htarget]
      refine ih (fun other hother => ?_) hsteps
      have hne : target ≠ other := by
        rintro rfl
        exact htarget hother
      rw [after_of_ne hne, hsame other hother]

/-- Steps on other registers leave a register as it is. -/
theorem run_of_ne (h : ∀ step ∈ steps, step.register ≠ register) :
    registers.run steps register = registers register := by
  induction steps generalizing registers with
  | nil => rfl
  | cons step steps ih =>
    obtain ⟨hstep, hsteps⟩ := List.forall_mem_cons.1 h
    show (registers.after step).run steps register = registers register
    rw [ih hsteps, after_of_ne hstep]

end Steps

/-- After any steps a name is bound in a table of a register to what the latest step that wrote it
there has written, unless the register has been cleared since; a merge writes exactly what is bound
in the other register by then. What happens in a register shows only in registers that it is merged
into later, and a step touches no other register and no table that it is not about. Merging is
associative and idempotent, and empty bindings are neutral on both sides. -/
theorem keeps_last_written (steps : List RegisterStep) :
    (∀ register kind name value,
      ((start.run steps register).table kind).find? name = some value ↔
        LastWritten register kind name value steps) ∧
    (∀ before register other later, steps = before ++ ⟨register, .merge other⟩ :: later →
      (∀ step ∈ later, step.register ≠ register) →
      start.run steps register = (start.run before register).merge (start.run before other)) ∧
    (∀ before later keep, steps = before ++ later → Closed keep later →
      ∀ register, keep register = true →
      start.run steps register =
        start.run (before ++ later.filter fun step => keep step.register) register) ∧
    (∀ step register, step.register ≠ register →
      start.run (steps ++ [step]) register = start.run steps register) ∧
    (∀ register operation kind, kind ∉ operation.tables →
      (start.run (steps ++ [⟨register, operation⟩]) register).table kind =
        (start.run steps register).table kind) ∧
    (∀ a b c : Bindings, (a.merge b).merge c = a.merge (b.merge c)) ∧
    ∀ b : Bindings, b.merge b = b ∧ Bindings.empty.merge b = b ∧ b.merge Bindings.empty = b := by
  refine ⟨fun _ _ _ _ => bound_iff_lastWritten, ?_, ?_, ?_, ?_, Bindings.merge_assoc,
    fun b => ⟨b.merge_self, b.empty_merge, b.merge_empty⟩⟩
  · rintro before register other later rfl hlater
    rw [List.append_cons, run_append, run_of_ne hlater, run_concat, after_self]
    rfl
  · rintro before later keep rfl hclosed register hkeep
    rw [run_append, run_append]
    exact run_filter (fun _ _ => rfl) hclosed hkeep
  · intro step register hne
    rw [run_concat, after_of_ne hne]
  · intro register operation kind habout
    rw [run_concat, after_self, Operation.table_perform_of_not_mem habout]

/-- Some letters share a list, which is emptied after it has been merged into the bindings of one
of them. -/
def letterSteps : List RegisterStep :=
  [⟨"shared", .setList "items" [.string "A"]⟩, ⟨"letter", .setList "items" []⟩,
    ⟨"letter", .setCondition "items" true⟩, ⟨"letter", .merge "shared"⟩,
    ⟨"shared", .setList "items" []⟩, ⟨"shared", .setValue "late" (.bool true)⟩,
    ⟨"letter", .setCondition "items" false⟩]

/-- The letter has the list as it was, and nothing that came later. -/
theorem letterSteps_keep_items :
    LastWritten "letter" .lists "items" [.string "A"] letterSteps ∧
      LastWritten "letter" .conditions "items" false letterSteps ∧
      (∀ value, ¬ LastWritten "letter" .values "late" value letterSteps) ∧
      start.run letterSteps "letter" =
        start.run (letterSteps.take 4 ++ letterSteps.drop 6) "letter" := by
  obtain ⟨hbound, -, hfilter, -⟩ := keeps_last_written letterSteps
  have hclosed : Closed (· != "shared") (letterSteps.drop 4) := by
    rintro step hstep - other hmerge
    rcases hstep with _ | ⟨_, _ | ⟨_, _ | ⟨_, hnil⟩⟩⟩
    · cases hmerge
    · cases hmerge
    · cases hmerge
    · cases hnil
  refine ⟨(hbound _ _ _ _).1 rfl, (hbound _ _ _ _).1 rfl, ?_, ?_⟩
  · intro value hvalue
    cases (hbound _ _ _ _).2 hvalue
  · exact hfilter (letterSteps.take 4) (letterSteps.drop 4) (· != "shared") rfl hclosed "letter" rfl

end Registers

end StyledTemplate
