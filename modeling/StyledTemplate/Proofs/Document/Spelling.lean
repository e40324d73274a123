import StyledTemplate.Proofs.Document.Paragraphs
import StyledTemplate.Proofs.Render.Atoms

/-!
# Spelling runs out

How a text is spread over runs of one formatting does not matter. To say so, runs are spelled out:
each character gets a run of its own, and text runs without characters go. Runs with the same content
are spelled alike, and what the parser asks of the runs of a paragraph, it may as well ask of them
spelled out.
-/

namespace StyledTemplate

open Text (byteLength takeBytes dropBytes)

/-! ## Runs -/

/-- The run that shows nothing but an atom. -/
def Atom.toRun : Atom → Run
  | .char c style => .ofText (String.ofList [c]) style
  | .run r => r

def Run.spell (run : Run) : List Run := run.atoms.map Atom.toRun

/-- The runs with one run for each atom. -/
def spellRuns (runs : List Run) : List Run := (runsAtoms runs).map Atom.toRun

/-- A text with one run for each character. -/
def spellText (cs : List Char) (style : RunProperties) : List Run :=
  cs.map fun c => .ofText (String.ofList [c]) style

@[simp] theorem spellRuns_nil : spellRuns [] = [] := rfl

@[simp] theorem spellRuns_cons (run : Run) (runs : List Run) :
    spellRuns (run :: runs) = run.spell ++ spellRuns runs := by
  rw [spellRuns, runsAtoms_cons, List.map_append]
  rfl

@[simp] theorem spellRuns_append (as bs : List Run) :
    spellRuns (as ++ bs) = spellRuns as ++ spellRuns bs := by
  rw [spellRuns, runsAtoms_append, List.map_append]
  rfl

@[simp] theorem Run.spell_ofText (text : String) (style : RunProperties) :
    (Run.ofText text style).spell = spellText text.toList style := by
  simp only [Run.spell, Run.ofText, Run.atoms, textAtoms, List.map_map, spellText]
  rfl

theorem atoms_of_text?_eq_none {run : Run} (h : run.text? = none) : run.atoms = [.run run] := by
  obtain ⟨properties, content⟩ := run
  cases content with
  | text text => simp [Run.text?] at h
  | lineBreak => rfl
  | image image => rfl

theorem Run.spell_of_text?_eq_none {run : Run} (h : run.text? = none) : run.spell = [run] := by
  rw [Run.spell, atoms_of_text?_eq_none h]
  rfl

theorem spellText_cons (c : Char) (cs : List Char) (style : RunProperties) :
    spellText (c :: cs) style = .ofText (String.ofList [c]) style :: spellText cs style := rfl

theorem spellText_append (as bs : List Char) (style : RunProperties) :
    spellText (as ++ bs) style = spellText as style ++ spellText bs style := List.map_append

/-- A run is a text run or stands for itself. -/
theorem runs_induction {motive : List Run → Prop} (nil : motive [])
    (text : ∀ s style runs, motive runs → motive (.ofText s style :: runs))
    (other : ∀ run runs, run.text? = none → motive runs → motive (run :: runs))
    (runs : List Run) : motive runs := by
  induction runs with
  | nil => exact nil
  | cons run runs ih =>
    obtain ⟨properties, content⟩ := run
    cases content with
    | text s => exact text s properties runs ih
    | lineBreak => exact other _ runs rfl ih
    | image image => exact other _ runs rfl ih

@[simp] theorem Run.text?_ofText (text : String) (style : RunProperties) :
    (Run.ofText text style).text? = some text := rfl

/-- The runs among the content of runs are those that are not text. -/
theorem text?_of_run_mem {run : Run} {runs : List Run} (h : .run run ∈ runsAtoms runs) :
    run.text? = none := by
  induction runs using runs_induction with
  | nil => cases h
  | text s style runs ih =>
    rw [runsAtoms_cons, List.mem_append] at h
    rcases h with hchar | hrest
    · simp [Run.ofText, Run.atoms, textAtoms] at hchar
    · exact ih hrest
  | other other runs hother ih =>
    rw [runsAtoms_cons, atoms_of_text?_eq_none hother, List.singleton_append, List.mem_cons] at h
    rcases h with hrun | hrest
    · rw [Atom.run.inj hrun]
      exact hother
    · exact ih hrest

/-- Content whose runs are not text is the content of its runs. -/
theorem runsAtoms_toRun {atoms : List Atom} (h : ∀ run, .run run ∈ atoms → run.text? = none) :
    runsAtoms (atoms.map Atom.toRun) = atoms := by
  induction atoms with
  | nil => rfl
  | cons atom atoms ih =>
    rw [List.map_cons, runsAtoms_cons, ih fun run hrun => h run (List.mem_cons_of_mem _ hrun)]
    cases atom with
    | char c style => simp [Atom.toRun, Run.atoms, textAtoms, Run.ofText]
    | run run =>
      rw [Atom.toRun, atoms_of_text?_eq_none (h run List.mem_cons_self)]
      rfl

/-- Spelling twice is spelling once. -/
theorem runsAtoms_spellRuns (runs : List Run) : runsAtoms (spellRuns runs) = runsAtoms runs :=
  runsAtoms_toRun fun _ => text?_of_run_mem

/-- Runs are spelled alike if they have the same content. -/
theorem spellRuns_eq_iff {as bs : List Run} :
    spellRuns as = spellRuns bs ↔ runsAtoms as = runsAtoms bs := by
  constructor
  · intro h
    rw [← runsAtoms_spellRuns as, h, runsAtoms_spellRuns]
  · intro h
    rw [spellRuns, h, spellRuns]

theorem spellRuns_spell (run : Run) : spellRuns run.spell = run.spell := by
  have htwice := spellRuns_eq_iff.2 (runsAtoms_spellRuns [run])
  rw [spellRuns_cons, spellRuns_nil, List.append_nil] at htwice
  exact htwice

/-! ## What the parser asks of runs -/

theorem runsText_spellText (cs : List Char) (style : RunProperties) (runs : List Run) :
    runsText (spellText cs style ++ runs) = cs ++ runsText runs := by
  induction cs with
  | nil => rfl
  | cons c cs ih =>
    rw [spellText_cons, List.cons_append, runsText_cons, ih]
    simp

@[simp] theorem runsText_spellRuns (runs : List Run) : runsText (spellRuns runs) = runsText runs := by
  induction runs using runs_induction with
  | nil => rfl
  | text s style runs ih =>
    rw [spellRuns_cons, Run.spell_ofText, runsText_spellText, runsText_cons, ih]
    rfl
  | other run runs hrun ih =>
    rw [spellRuns_cons, Run.spell_of_text?_eq_none hrun, List.singleton_append, runsText_cons, ih,
      runsText_cons]

theorem anchorsFrom_text (offset : Nat) (s : String) (style : RunProperties) (runs : List Run) :
    anchorsFrom offset (.ofText s style :: runs) =
      anchorsFrom (offset + byteLength s.toList) runs := rfl

theorem anchorsFrom_other {run : Run} (h : run.text? = none) (offset : Nat) (runs : List Run) :
    anchorsFrom offset (run :: runs) = ⟨offset, run⟩ :: anchorsFrom offset runs := by
  rw [anchorsFrom, h]

/-- An anchor behind an offset is a run without text that stands there. -/
theorem behind_of_mem_anchorsFrom {a : Anchor} {offset : Nat} {runs : List Run}
    (h : a ∈ anchorsFrom offset runs) : offset ≤ a.offset ∧ a.run.text? = none := by
  induction runs using runs_induction generalizing offset with
  | nil => cases h
  | text s style runs ih =>
    rw [anchorsFrom_text] at h
    obtain ⟨hle, hother⟩ := ih h
    exact ⟨Nat.le_trans (Nat.le_add_right _ _) hle, hother⟩
  | other run runs hrun ih =>
    rw [anchorsFrom_other hrun, List.mem_cons] at h
    rcases h with rfl | h
    · exact ⟨Nat.le_refl _, hrun⟩
    · exact ih h

theorem anchorsFrom_spellText (offset : Nat) (cs : List Char) (style : RunProperties)
    (runs : List Run) : anchorsFrom offset (spellText cs style ++ runs) =
      anchorsFrom (offset + byteLength cs) runs := by
  induction cs generalizing offset with
  | nil => rfl
  | cons c cs ih =>
    rw [spellText_cons, List.cons_append, anchorsFrom_text, ih, String.toList_ofList]
    simp [Nat.add_assoc]

@[simp] theorem anchorsFrom_spellRuns (offset : Nat) (runs : List Run) :
    anchorsFrom offset (spellRuns runs) = anchorsFrom offset runs := by
  induction runs using runs_induction generalizing offset with
  | nil => rfl
  | text s style runs ih =>
    rw [spellRuns_cons, Run.spell_ofText, anchorsFrom_spellText, ih, anchorsFrom_text]
  | other run runs hrun ih =>
    rw [spellRuns_cons, Run.spell_of_text?_eq_none hrun, List.singleton_append,
      anchorsFrom_other hrun, ih, anchorsFrom_other hrun]

theorem spansFrom_text (offset : Nat) (s : String) (style : RunProperties) (runs : List Run) :
    spansFrom offset (.ofText s style :: runs) =
      ⟨offset, offset + byteLength s.toList, style⟩ ::
        spansFrom (offset + byteLength s.toList) runs := rfl

theorem spansFrom_other {run : Run} (h : run.text? = none) (offset : Nat) (runs : List Run) :
    spansFrom offset (run :: runs) = spansFrom offset runs := by
  rw [spansFrom, h]

/-- The formatting of the span that holds a byte. -/
def styleIn? (byte : Nat) (spans : List Span) : Option RunProperties :=
  (spans.find? fun span => span.start ≤ byte && byte < span.stop).map Span.style

theorem styleAt_eq (map : RunMap) (byte : Nat) :
    map.styleAt byte = (styleIn? byte map.spans).getD {} := by
  rw [RunMap.styleAt, styleIn?]
  cases map.spans.find? fun span => span.start ≤ byte && byte < span.stop <;> rfl

theorem styleIn?_cons (byte : Nat) (span : Span) (spans : List Span) :
    styleIn? byte (span :: spans) =
      if span.start ≤ byte ∧ byte < span.stop then some span.style else styleIn? byte spans := by
  rw [styleIn?, List.find?_cons]
  by_cases h : span.start ≤ byte ∧ byte < span.stop
  · simp [h]
  · rw [if_neg h]
    have hfalse : (decide (span.start ≤ byte) && decide (byte < span.stop)) = false := by
      simpa using h
    rw [hfalse]
    rfl

theorem styleIn?_spellText (byte offset : Nat) (cs : List Char) (style : RunProperties)
    (runs : List Run) : styleIn? byte (spansFrom offset (spellText cs style ++ runs)) =
      if offset ≤ byte ∧ byte < offset + byteLength cs then some style
      else styleIn? byte (spansFrom (offset + byteLength cs) runs) := by
  induction cs generalizing offset with
  | nil =>
    rw [if_neg (by simp)]
    rfl
  | cons c cs ih =>
    have hlength : byteLength (c :: cs) = c.utf8Size + byteLength cs := rfl
    have hone : byteLength (String.ofList [c]).toList = c.utf8Size := by simp
    rw [spellText_cons, List.cons_append, spansFrom_text, styleIn?_cons, ih, hone, hlength,
      Nat.add_assoc]
    dsimp only
    by_cases hfirst : offset ≤ byte ∧ byte < offset + c.utf8Size
    · rw [if_pos hfirst, if_pos (by omega)]
    · by_cases hrest : offset + c.utf8Size ≤ byte ∧ byte < offset + (c.utf8Size + byteLength cs)
      · rw [if_neg hfirst, if_pos hrest, if_pos (by omega)]
      · rw [if_neg hfirst, if_neg hrest, if_neg (by omega)]

theorem styleIn?_spellRuns (byte offset : Nat) (runs : List Run) :
    styleIn? byte (spansFrom offset (spellRuns runs)) = styleIn? byte (spansFrom offset runs) := by
  induction runs using runs_induction generalizing offset with
  | nil => rfl
  | text s style runs ih =>
    rw [spellRuns_cons, Run.spell_ofText, styleIn?_spellText, ih, spansFrom_text, styleIn?_cons]
  | other run runs hrun ih =>
    rw [spellRuns_cons, Run.spell_of_text?_eq_none hrun, List.singleton_append,
      spansFrom_other hrun, ih, spansFrom_other hrun]

/-- A directive gets its formatting from the character that it starts with. -/
theorem styleAt_spellRuns (runs : List Run) (byte : Nat) :
    (RunMap.ofRuns (spellRuns runs)).styleAt byte = (RunMap.ofRuns runs).styleAt byte := by
  rw [styleAt_eq, styleAt_eq]
  exact congrArg (Option.getD · {}) (styleIn?_spellRuns byte 0 runs)

/-! ## Cutting -/

/-- What is left of a text that starts at `offset` if some bytes are cut out. -/
def keptChars (start stop offset : Nat) (cs : List Char) : List Char :=
  takeBytes (start - offset) cs ++ dropBytes (stop - offset) cs

section Cut

variable {start stop : Nat}

theorem keptChars_append (h : start ≤ stop) (offset : Nat) (as bs : List Char) :
    keptChars start stop offset (as ++ bs) =
      keptChars start stop offset as ++ keptChars start stop (offset + byteLength as) bs := by
  rw [keptChars, keptChars, keptChars, takeBytes_append, dropBytes_append, Nat.sub_sub,
    Nat.sub_sub]
  by_cases hdrop : dropBytes (stop - offset) as = []
  · simp [hdrop]
  · have hnone := takeBytes_eq_nil_of_dropBytes_ne_nil (m := start - offset) (by omega) hdrop bs
    rw [Nat.sub_sub] at hnone
    simp [hnone]

/-- Nothing is cut out of a text before or behind the bytes. -/
theorem keptChars_of_outside (h : start ≤ stop) {offset : Nat} {cs : List Char}
    (hout : offset + byteLength cs ≤ start ∨ stop ≤ offset) :
    keptChars start stop offset cs = cs := by
  rw [keptChars]
  rcases hout with hbefore | hbehind
  · rw [takeBytes_eq_of_byteLength_le (by omega), dropBytes_eq_nil_of_byteLength_le (by omega),
      List.append_nil]
  · rw [Nat.sub_eq_zero_of_le (Nat.le_trans h hbehind), Nat.sub_eq_zero_of_le hbehind]
    simp

theorem cutRuns_other {run : Run} (hrun : run.text? = none) (offset : Nat) (runs : List Run) :
    cutRuns start stop offset (run :: runs) = run :: cutRuns start stop offset runs := by
  rw [cutRuns, hrun]

/-- What is left of a text run, spelled out. -/
theorem spellRuns_cutRuns_text (h : start ≤ stop) (offset : Nat) (s : String)
    (style : RunProperties) (runs : List Run) :
    spellRuns (cutRuns start stop offset (.ofText s style :: runs)) =
      spellText (keptChars start stop offset s.toList) style ++
        spellRuns (cutRuns start stop (offset + byteLength s.toList) runs) := by
  rw [cutRuns, Run.text?_ofText]
  dsimp only
  by_cases hout : offset + byteLength s.toList ≤ start ∨ stop ≤ offset
  · rw [if_pos hout, keptChars_of_outside h hout, spellRuns_cons, Run.spell_ofText]
  · rw [if_neg hout]
    by_cases hkept : keptChars start stop offset s.toList = []
    · rw [hkept]
      exact congrArg spellRuns (if_pos hkept)
    · refine (congrArg spellRuns (if_neg hkept)).trans ?_
      rw [spellRuns_cons, Run.spell_ofText, String.toList_ofList]
      rfl

theorem keptChars_singleton (start stop offset : Nat) (c : Char) (h : start ≤ stop) :
    keptChars start stop offset [c] = [] ∨ keptChars start stop offset [c] = [c] := by
  rw [keptChars, takeBytes, dropBytes, takeBytes, dropBytes]
  by_cases htake : c.utf8Size ≤ start - offset
  · have hdrop : c.utf8Size ≤ stop - offset := by omega
    simp [htake, hdrop]
  · by_cases hdrop : c.utf8Size ≤ stop - offset
    · simp [htake, hdrop]
    · simp [htake, hdrop]

theorem cutRuns_char (h : start ≤ stop) (offset : Nat) (c : Char) (style : RunProperties)
    (runs : List Run) :
    cutRuns start stop offset (.ofText (String.ofList [c]) style :: runs) =
      spellText (keptChars start stop offset [c]) style ++
        cutRuns start stop (offset + byteLength [c]) runs := by
  rw [cutRuns, Run.text?_ofText]
  dsimp only
  rw [String.toList_ofList]
  by_cases hout : offset + byteLength [c] ≤ start ∨ stop ≤ offset
  · rw [if_pos hout, keptChars_of_outside h hout]
    rfl
  · rw [if_neg hout]
    rcases keptChars_singleton start stop offset c h with hkept | hkept
    · rw [hkept]
      exact if_pos hkept
    · refine (if_neg (by rw [← keptChars, hkept]; simp)).trans ?_
      rw [← keptChars, hkept]
      rfl

theorem cutRuns_spellText (h : start ≤ stop) (offset : Nat) (cs : List Char)
    (style : RunProperties) (runs : List Run) :
    cutRuns start stop offset (spellText cs style ++ runs) =
      spellText (keptChars start stop offset cs) style ++
        cutRuns start stop (offset + byteLength cs) runs := by
  induction cs generalizing offset with
  | nil =>
    simp [keptChars, takeBytes, dropBytes, spellText]
  | cons c cs ih =>
    rw [spellText_cons, List.cons_append, cutRuns_char h, ih, ← List.append_assoc,
      ← spellText_append, Nat.add_assoc, ← Text.byteLength_append, ← keptChars_append h,
      List.singleton_append]

/-- Cutting bytes out of runs cuts them out of the runs spelled out. -/
theorem spellRuns_cutRuns (h : start ≤ stop) (offset : Nat) (runs : List Run) :
    spellRuns (cutRuns start stop offset runs) = cutRuns start stop offset (spellRuns runs) := by
  induction runs using runs_induction generalizing offset with
  | nil => rfl
  | text s style runs ih =>
    rw [spellRuns_cutRuns_text h, ih, spellRuns_cons, Run.spell_ofText, cutRuns_spellText h]
  | other run runs hrun ih =>
    rw [cutRuns_other hrun, spellRuns_cons, spellRuns_cons, ih,
      Run.spell_of_text?_eq_none hrun, List.singleton_append, List.singleton_append,
      cutRuns_other hrun]

end Cut

/-! ## Paragraphs -/

/-- The paragraph with one run for each atom. -/
def Paragraph.spell (p : Paragraph) : Paragraph := { p with runs := spellRuns p.runs }

theorem Paragraph.spell_cut (p : Paragraph) {start stop : Nat} (h : start ≤ stop) :
    (p.cut start stop).spell = p.spell.cut start stop := by
  simp only [Paragraph.spell, Paragraph.cut, spellRuns_cutRuns h]

theorem Paragraph.isBlank_spell (p : Paragraph) : p.spell.isBlank = p.isBlank := by
  have hall : ∀ runs : List Run, (spellRuns runs).all
      (fun run => (run.text?.map fun s => Text.allBlank s.toList).getD false) =
      runs.all fun run => (run.text?.map fun s => Text.allBlank s.toList).getD false := by
    intro runs
    induction runs using runs_induction with
    | nil => rfl
    | text s style runs ih =>
      rw [spellRuns_cons, Run.spell_ofText, List.all_append, ih, List.all_cons, spellText,
        List.all_map]
      congr 1
      simp [Function.comp_def, Text.allBlank]
    | other run runs hrun ih =>
      rw [spellRuns_cons, Run.spell_of_text?_eq_none hrun, List.singleton_append, List.all_cons,
        ih, List.all_cons]
  exact hall p.runs

end StyledTemplate
