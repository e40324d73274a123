import Mathlib.Data.List.Induction
import StyledTemplate.Proofs.Engine.Reached
import StyledTemplate.Proofs.Fields

/-!
# What an engine keeps after any calls

Programs load and forget templates in any order, and some loads fail. After all of it an engine keeps
under a name what the last load of the name that succeeded has parsed, as strictly as the engine was
then, unless the name has been removed or everything has been cleared since
(`Engine.keeps_last_loaded`). A call either affects a name or leaves alone what is kept under it
(`Engine.template?_after`), and a list of calls that leave a name alone does so as well
(`Engine.template?_afterAll`).
-/

namespace StyledTemplate

theorem Template.name_of_ofDocument {settings : TemplateSettings} {name : String}
    {document : Document} {t : Template} (h : ofDocument settings name document = .ok t) :
    t.name = name := by
  unfold ofDocument at h
  split at h
  · obtain rfl := Except.ok.inj h
    rfl
  · cases h

namespace Engine

/-! ## Calls -/

/-- What a program can ask of an engine, and what can happen around it. -/
inductive Call where
  /-- Read a template and keep it. -/
  | load (name : String) (source : Source)
  /-- Check that a text could be loaded. -/
  | validate (text : String)
  /-- Forget the template of a name. -/
  | remove (name : String)
  /-- Forget all templates. -/
  | clear
  /-- Be strict from now on, or not. -/
  | setStrict (strict : Bool)
  /-- Take the bytes of images from elsewhere. -/
  | setLoader (loader : ImageLoader)
  /-- Other files are around the engine from now on. -/
  | setFiles (files : FileTree)

/-- Makes a call: what comes of it, and the engine after it. -/
def answer (engine : Engine) : Call → Except Error Unit × Engine
  | .load name source =>
    match engine.loadFrom name source with
    | .ok (_, next) => (.ok (), next)
    | .error e => (.error e, engine)
  | .validate text => (engine.validate text, engine)
  | .remove name => (.ok (), engine.remove name)
  | .clear => (.ok (), engine.clear)
  | .setStrict strict => (.ok (), engine.setStrict strict)
  | .setLoader loader => (.ok (), engine.setLoader loader)
  | .setFiles files => (.ok (), engine.setFiles files)

/-- The engine after a call. -/
def after (engine : Engine) (call : Call) : Engine := (engine.answer call).2

/-- The engine after some calls, made one after the other. -/
def afterAll (engine : Engine) (calls : List Call) : Engine := calls.foldl after engine

/-- The calls that change what an engine keeps under a name. -/
inductive Call.Affects (engine : Engine) (name : String) : Call → Prop
  | load {source : Source} {t : Template} {next : Engine}
      (hload : engine.loadFrom name source = .ok (t, next)) : Affects engine name (.load name source)
  | remove : Affects engine name (.remove name)
  | clear : Affects engine name .clear

/-- Is an engine strict after some calls, if it was `strict` before them? -/
def strictAfter (strict : Bool) : List Call → Bool
  | [] => strict
  | .setStrict now :: calls => strictAfter now calls
  | _ :: calls => strictAfter strict calls

section Calls

variable {engine : Engine} {name : String}

theorem afterAll_append (engine : Engine) (calls later : List Call) :
    engine.afterAll (calls ++ later) = (engine.afterAll calls).afterAll later :=
  List.foldl_append

theorem afterAll_concat (engine : Engine) (calls : List Call) (call : Call) :
    engine.afterAll (calls ++ [call]) = (engine.afterAll calls).after call :=
  afterAll_append engine calls [call]

theorem after_load {source : Source} {t : Template} {next : Engine}
    (h : engine.loadFrom name source = .ok (t, next)) :
    engine.after (.load name source) = next := by
  rw [after, answer, h]

theorem after_load_of_error {source : Source} {e : Error}
    (h : engine.loadFrom name source = .error e) : engine.after (.load name source) = engine := by
  rw [after, answer, h]

/-- A call that fails leaves the engine as it was. -/
theorem answer_eq_of_error {call : Call} {e : Error} (h : (engine.answer call).1 = .error e) :
    (engine.answer call).2 = engine := by
  cases call with
  | load name source =>
    cases hload : engine.loadFrom name source with
    | error e => exact after_load_of_error hload
    | ok loaded =>
      rw [answer, hload] at h
      cases h
  | validate text => rfl
  | remove name => cases h
  | clear => cases h
  | setStrict strict => cases h
  | setLoader loader => cases h
  | setFiles files => cases h

theorem settings_after (engine : Engine) (call : Call) :
    (engine.after call).settings =
      { engine.settings with strict := strictAfter engine.settings.strict [call] } := by
  cases call with
  | load name source =>
    cases hload : engine.loadFrom name source with
    | error e =>
      rw [after_load_of_error hload]
      rfl
    | ok loaded =>
      obtain ⟨t, next⟩ := loaded
      obtain ⟨document, -, -, rfl⟩ := loadFrom_ok_iff.1 hload
      rw [after_load hload]
      rfl
  | validate text => rfl
  | remove name => rfl
  | clear => rfl
  | setStrict strict => rfl
  | setLoader loader => rfl
  | setFiles files => rfl

/-- Of the settings only the strictness changes, and it is what it was last set to. -/
theorem settings_afterAll (engine : Engine) (calls : List Call) :
    (engine.afterAll calls).settings =
      { engine.settings with strict := strictAfter engine.settings.strict calls } := by
  induction calls generalizing engine with
  | nil => rfl
  | cons call calls ih =>
    have hstep : strictAfter engine.settings.strict (call :: calls) =
        strictAfter (strictAfter engine.settings.strict [call]) calls := by
      cases call <;> rfl
    show ((engine.after call).afterAll calls).settings = _
    rw [ih, settings_after, hstep]

/-! ## Names that are left alone -/

/-- A call that does not affect a name leaves alone what is kept under it. -/
theorem template?_after {call : Call} (h : ¬ call.Affects engine name) :
    (engine.after call).template? name = engine.template? name := by
  cases call with
  | load other source =>
    cases hload : engine.loadFrom other source with
    | error e => rw [after_load_of_error hload]
    | ok loaded =>
      obtain ⟨t, next⟩ := loaded
      obtain ⟨document, -, hparse, rfl⟩ := loadFrom_ok_iff.1 hload
      have hne : t.name ≠ name := by
        intro hname
        rw [Template.name_of_ofDocument hparse] at hname
        subst hname
        exact h (.load hload)
      rw [after_load hload, template?, register, Registry.find?_insert, if_neg hne]
      rfl
  | validate text => rfl
  | remove other =>
    have hne : other ≠ name := by
      rintro rfl
      exact h .remove
    rw [after, answer, template?, remove, Registry.find?_erase, if_neg hne, template?]
  | clear => exact absurd .clear h
  | setStrict strict => rfl
  | setLoader loader => rfl
  | setFiles files => rfl

/-- None of the calls, when they are made one after the other, affects a name. -/
def LeaveAlone (engine : Engine) (name : String) (calls : List Call) : Prop :=
  ∀ before call later, calls = before ++ call :: later →
    ¬ call.Affects (engine.afterAll before) name

theorem leaveAlone_nil (engine : Engine) (name : String) : engine.LeaveAlone name [] := by
  intro before call later h
  exact absurd h.symm (List.append_ne_nil_of_right_ne_nil before (List.cons_ne_nil call later))

theorem LeaveAlone.concat {calls : List Call} {call : Call} (h : engine.LeaveAlone name calls)
    (hcall : ¬ call.Affects (engine.afterAll calls) name) :
    engine.LeaveAlone name (calls ++ [call]) := by
  intro before other later hsplit
  rcases List.eq_nil_or_concat later with rfl | ⟨later, last, rfl⟩
  · obtain ⟨rfl, hother⟩ := List.append_inj' hsplit rfl
    obtain rfl := List.head_eq_of_cons_eq hother
    exact hcall
  · rw [List.concat_eq_append, ← List.cons_append, ← List.append_assoc] at hsplit
    obtain ⟨rfl, -⟩ := List.append_inj' hsplit rfl
    exact h before other later rfl

theorem LeaveAlone.tail {calls : List Call} {call : Call}
    (h : engine.LeaveAlone name (call :: calls)) : (engine.after call).LeaveAlone name calls := by
  intro before other later hsplit
  exact h (call :: before) other later (congrArg (call :: ·) hsplit)

/-- What is kept under a name that is left alone stays. -/
theorem template?_afterAll {calls : List Call} (h : engine.LeaveAlone name calls) :
    (engine.afterAll calls).template? name = engine.template? name := by
  induction calls generalizing engine with
  | nil => rfl
  | cons call calls ih =>
    have hcall : ¬ call.Affects engine name := h [] call calls rfl
    show ((engine.after call).afterAll calls).template? name = _
    rw [ih h.tail, template?_after hcall]

end Calls

/-! ## What is kept -/

/-- The last load of a name that succeeded has parsed this template, as strictly as the engine was
by then, and since then no call has affected the name. -/
inductive LastLoaded (start : Engine) (name : String) (t : Template) : List Call → Prop
  | intro {before later : List Call} {source : Source} {document : Document}
      (hread : (start.afterAll before).documentOf? source = some document)
      (hparse : Template.ofDocument
        { start.settings with strict := strictAfter start.settings.strict before } name document =
          .ok t)
      (hlater : (start.afterAll (before ++ [.load name source])).LeaveAlone name later) :
      LastLoaded start name t (before ++ .load name source :: later)

section LastLoaded

variable {start : Engine} {name : String} {t : Template} {calls : List Call}

theorem LastLoaded.concat {call : Call} (h : start.LastLoaded name t calls)
    (hcall : ¬ call.Affects (start.afterAll calls) name) :
    start.LastLoaded name t (calls ++ [call]) := by
  cases h with
  | @intro before later source document hread hparse hlater =>
    rw [List.append_cons, afterAll_append] at hcall
    rw [List.append_assoc, List.cons_append]
    exact .intro hread hparse (hlater.concat hcall)

/-- The template that was loaded last is kept. -/
theorem LastLoaded.template?_eq (h : start.LastLoaded name t calls) :
    (start.afterAll calls).template? name = some t := by
  cases h with
  | @intro before later source document hread hparse hlater =>
    rw [← settings_afterAll] at hparse
    have hload := loadFrom_ok_iff.2 ⟨document, hread, hparse, rfl⟩
    have hkept := template?_register (start.afterAll before) t
    rw [Template.name_of_ofDocument hparse] at hkept
    rw [List.append_cons, afterAll_append, template?_afterAll hlater, afterAll_concat,
      after_load hload, hkept]

/-- What is kept after some calls was there before them or has been loaded by one of them. -/
theorem lastLoaded_of_template? (hstart : start.template? name = none)
    (h : (start.afterAll calls).template? name = some t) : start.LastLoaded name t calls := by
  induction calls using List.reverseRecOn with
  | nil => cases hstart.symm.trans h
  | append_singleton calls call ih =>
    rw [afterAll_concat] at h
    by_cases hcall : call.Affects (start.afterAll calls) name
    · cases hcall with
      | @load source loaded next hload =>
        obtain ⟨document, hread, hparse, rfl⟩ := loadFrom_ok_iff.1 hload
        have hkept := template?_register (start.afterAll calls) loaded
        rw [Template.name_of_ofDocument hparse] at hkept
        rw [after_load hload, hkept] at h
        obtain rfl := Option.some.inj h
        rw [settings_afterAll] at hparse
        exact .intro hread hparse (leaveAlone_nil _ name)
      | remove =>
        have hnone : ((start.afterAll calls).remove name).template? name = none := by
          rw [template?, remove, Registry.find?_erase, if_pos rfl]
        cases hnone.symm.trans h
      | clear => cases h
    · rw [template?_after hcall] at h
      exact (ih h).concat hcall

end LastLoaded

/-- A text is found right if it could be loaded, under whatever name, and otherwise it is rejected
with the error it would be rejected with then, but for the name. -/
theorem validate_load (engine : Engine) (name text : String) :
    ((∃ next, engine.answer (.load name (.text text)) = (.ok (), next)) ∧
        engine.answer (.validate text) = (.ok (), engine)) ∨
      ∃ e : ParseError,
        engine.answer (.load name (.text text)) =
            (.error (.parse (e.withTemplate name)), engine) ∧
          engine.answer (.validate text) =
            (.error (.parse (e.withTemplate "<validate>")), engine) := by
  simp only [answer, loadFrom, load, loadDocument, validate, Template.ofText, Template.ofDocument]
  cases (parseBody engine.settings (Document.ofText text).body).run {} with
  | ok parsed => exact .inl ⟨⟨_, rfl⟩, rfl⟩
  | error e => exact .inr ⟨e, rfl, rfl⟩

/-- The engine that some calls make of a new one. -/
def ofCalls (settings : TemplateSettings) (files : FileTree) (calls : List Call) : Engine :=
  (ofSettings settings files).afterAll calls

theorem Reached.after {engine : Engine} (hreached : engine.Reached) (call : Call) :
    (engine.after call).Reached := by
  cases call with
  | load name source =>
    cases hload : engine.loadFrom name source with
    | error e =>
      rw [after_load_of_error hload]
      exact hreached
    | ok loaded =>
      rw [after_load hload]
      exact hreached.step (.load hload)
  | validate text => exact hreached
  | remove name => exact hreached.step (.remove engine name)
  | clear => exact hreached.step (.clear engine)
  | setStrict strict => exact hreached.step (.setStrict engine strict)
  | setLoader loader => exact hreached.step (.setLoader engine loader)
  | setFiles files => exact hreached.step (.setFiles engine files)

theorem Reached.afterAll {engine : Engine} (hreached : engine.Reached) (calls : List Call) :
    (engine.afterAll calls).Reached := by
  induction calls generalizing engine with
  | nil => exact hreached
  | cons call calls ih => exact ih (hreached.after call)

/-- What holds of all engines that are reached holds after all calls. -/
theorem reached_ofCalls (settings : TemplateSettings) (files : FileTree) (calls : List Call) :
    (ofCalls settings files calls).Reached :=
  (Reached.start settings files).afterAll calls

/-- Whatever is called, an engine keeps under a name what the last load of it that succeeded has
parsed, as strictly as the engine was then, if the name has not been removed or everything been
cleared since. So every template is kept under its own name, and the names that are listed in order
are those with such a load. A call that fails changes nothing, and a text is validated with the same
outcome as it is loaded with, and without being kept. -/
theorem keeps_last_loaded (settings : TemplateSettings) (files : FileTree) (calls : List Call) :
    (∀ name t, (ofCalls settings files calls).template? name = some t ↔
      (ofSettings settings files).LastLoaded name t calls) ∧
    (∀ name t, (ofCalls settings files calls).template? name = some t → t.name = name) ∧
    (∀ call e, ((ofCalls settings files calls).answer call).1 = .error e →
      ((ofCalls settings files calls).answer call).2 = ofCalls settings files calls) ∧
    (ofCalls settings files calls).names.Pairwise (· < ·) ∧
    (∀ name, name ∈ (ofCalls settings files calls).names ↔
      ∃ t, (ofSettings settings files).LastLoaded name t calls) ∧
    ∀ name text,
      ((∃ next, (ofCalls settings files calls).answer (.load name (.text text)) = (.ok (), next)) ∧
        (ofCalls settings files calls).answer (.validate text) =
          (.ok (), ofCalls settings files calls)) ∨
      ∃ e : ParseError,
        (ofCalls settings files calls).answer (.load name (.text text)) =
            (.error (.parse (e.withTemplate name)), ofCalls settings files calls) ∧
          (ofCalls settings files calls).answer (.validate text) =
            (.error (.parse (e.withTemplate "<validate>")), ofCalls settings files calls) := by
  have hkept : ∀ name t, (ofCalls settings files calls).template? name = some t ↔
      (ofSettings settings files).LastLoaded name t calls := fun name t =>
    ⟨lastLoaded_of_template? rfl, LastLoaded.template?_eq⟩
  refine ⟨hkept, ?_, fun call e => answer_eq_of_error, NameMap.keys_sorted _, ?_,
    validate_load _⟩
  · intro name t h
    cases (hkept name t).1 h with
    | intro _ hparse _ => exact Template.name_of_ofDocument hparse
  · intro name
    rw [names, NameMap.keys, Fields.mem_keys_iff]
    exact exists_congr (hkept name)

/-- A letter that lies in a directory of its own. -/
def letterFiles : FileTree where
  file? path := if path = "/post/letter.txt" then some (.ok "Hello".toUTF8.toList) else none

/-- A note is loaded and then, in strict mode, fails to load again; a card comes and goes; and a
letter is loaded once it is there. -/
def noteCalls : List Call :=
  [.load "note" (.text "\x7b\x7bto do\x7d\x7d"), .setStrict true,
    .load "note" (.text "\x7b\x7bto do\x7d\x7d"), .load "card" (.text "Hello"), .remove "card",
    .load "letter" (.file "/post/letter.txt"), .setFiles letterFiles,
    .load "letter" (.file "/post/letter.txt")]

/-- The note that was loaded first is kept, and the letter, and nothing else is. -/
theorem noteCalls_keep_note : ∃ t letter,
    (ofCalls {} default noteCalls).template? "note" = some t ∧ t.name = "note" ∧
    (ofSettings {} default).LastLoaded "note" t noteCalls ∧
    (ofSettings {} default).LastLoaded "letter" letter noteCalls ∧
    (∀ t, ¬ (ofSettings {} default).LastLoaded "card" t noteCalls) ∧
    ∃ e, (ofCalls {} default noteCalls).answer
      (.load "note" (.text "\x7b\x7bto do\x7d\x7d")) = (.error e, ofCalls {} default noteCalls) := by
  obtain ⟨hkept, hname, hfails, -, hnames, -⟩ := keeps_last_loaded {} default noteCalls
  have hall : (ofCalls {} default noteCalls).names = ["letter", "note"] := by
    decide +kernel
  rw [hall] at hnames
  obtain ⟨t, ht⟩ := (hnames "note").1 (by decide)
  obtain ⟨letter, hletter⟩ := (hnames "letter").1 (by decide)
  have hcard : ∀ t, ¬ (ofSettings {} default).LastLoaded "card" t noteCalls := by
    intro t ht
    exact absurd ((hnames "card").2 ⟨t, ht⟩) (by decide)
  have hfailure : (failure? ((ofCalls {} default noteCalls).answer
      (.load "note" (.text "\x7b\x7bto do\x7d\x7d"))).1).isSome = true := by decide +kernel
  obtain ⟨e, he⟩ := Option.isSome_iff_exists.1 hfailure
  have herror := failure?_eq_some_iff.1 he
  have hkeep := (hkept "note" t).2 ht
  exact ⟨t, letter, hkeep, hname "note" t hkeep, ht, hletter, hcard, e,
    Prod.ext herror (hfails _ e herror)⟩

end Engine

end StyledTemplate
