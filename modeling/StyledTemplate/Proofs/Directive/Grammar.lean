import StyledTemplate.Directive.Basic

/-!
# Well-nested directives

`WellNested` is the grammar of directives that open and close each other properly. Reading such a
sequence from left to right needs no more than the stack of the regions that are open, and of each
condition whether its alternative has been read: `nestAfter?` is one step of that reading, and
`nestAfterAll?_eq_nil_iff` says that the sequences which leave no region open are the well-nested
ones. `deepest` is the number of regions open at the deepest place of a sequence.
-/

namespace StyledTemplate

/-! ## The grammar -/

namespace Directive

/-- Does the directive stand for itself, and open, split or close no region? -/
def isLeaf : Directive → Bool
  | .placeholder _ => true
  | .image _ => true
  | .inherits _ => true
  | _ => false

/-- Does the directive open a region? -/
def isOpener : Directive → Bool
  | .ifOpen _ => true
  | .eachOpen _ => true
  | .blockOpen _ => true
  | _ => false

end Directive

/-- The sequences of directives in which every region is closed by its own kind of directive, and
no condition has two alternatives. -/
inductive WellNested : List Directive → Prop where
  /-- Nothing. -/
  | nil : WellNested []
  /-- A directive that stands for itself. -/
  | leaf {d : Directive} {w : List Directive} (hd : d.isLeaf) (hw : WellNested w) :
      WellNested (d :: w)
  /-- A condition with one branch. -/
  | condition {c : String} {v w : List Directive} (hv : WellNested v) (hw : WellNested w) :
      WellNested (.ifOpen c :: v ++ .ifClose :: w)
  /-- A condition with two branches. -/
  | alternative {c : String} {u v w : List Directive} (hu : WellNested u) (hv : WellNested v)
      (hw : WellNested w) : WellNested (.ifOpen c :: u ++ .otherwise :: v ++ .ifClose :: w)
  /-- A loop. -/
  | loop {list : String} {v w : List Directive} (hv : WellNested v) (hw : WellNested w) :
      WellNested (.eachOpen list :: v ++ .eachClose :: w)
  /-- A named block. -/
  | named {id : String} {v w : List Directive} (hv : WellNested v) (hw : WellNested w) :
      WellNested (.blockOpen id :: v ++ .blockClose :: w)

/-- Well-nested sequences may follow each other. -/
theorem WellNested.append {v w : List Directive} (hv : WellNested v) (hw : WellNested w) :
    WellNested (v ++ w) := by
  induction hv with
  | nil => exact hw
  | leaf hd _ ih => exact .leaf hd ih
  | condition hv _ _ ih =>
    rw [List.append_assoc]
    exact .condition hv ih
  | alternative hu hv _ _ _ ih =>
    rw [List.append_assoc]
    exact .alternative hu hv ih
  | loop hv _ _ ih =>
    rw [List.append_assoc]
    exact .loop hv ih
  | named hv _ _ ih =>
    rw [List.append_assoc]
    exact .named hv ih

/-! ## Reading with a stack -/

/-- What decides how an open region may go on. -/
inductive OpenRegion where
  /-- A condition, and whether its alternative has been read. -/
  | condition (split : Bool)
  /-- A loop. -/
  | loop
  /-- A named block. -/
  | named
  deriving Repr, DecidableEq

/-- The open regions, innermost first, after a directive has been read. A directive that does not
fit the innermost one has no result. -/
def nestAfter? (nest : List OpenRegion) : Directive → Option (List OpenRegion)
  | .placeholder _ => some nest
  | .image _ => some nest
  | .inherits _ => some nest
  | .ifOpen _ => some (.condition false :: nest)
  | .eachOpen _ => some (.loop :: nest)
  | .blockOpen _ => some (.named :: nest)
  | .otherwise =>
    match nest with
    | .condition false :: outer => some (.condition true :: outer)
    | _ => none
  | .ifClose =>
    match nest with
    | .condition _ :: outer => some outer
    | _ => none
  | .eachClose =>
    match nest with
    | .loop :: outer => some outer
    | _ => none
  | .blockClose =>
    match nest with
    | .named :: outer => some outer
    | _ => none

/-- The open regions after some directives have been read. -/
def nestAfterAll? (nest : List OpenRegion) : List Directive → Option (List OpenRegion)
  | [] => some nest
  | d :: ds => (nestAfter? nest d).bind (nestAfterAll? · ds)

@[simp] theorem nestAfterAll?_nil (nest : List OpenRegion) : nestAfterAll? nest [] = some nest :=
  rfl

theorem nestAfterAll?_append (nest : List OpenRegion) (ds es : List Directive) :
    nestAfterAll? nest (ds ++ es) = (nestAfterAll? nest ds).bind (nestAfterAll? · es) := by
  induction ds generalizing nest with
  | nil => rfl
  | cons d ds ih =>
    simp only [List.cons_append, nestAfterAll?]
    cases nestAfter? nest d with
    | none => rfl
    | some next => exact ih next

theorem nestAfter?_leaf {d : Directive} (h : d.isLeaf) (nest : List OpenRegion) :
    nestAfter? nest d = some nest := by
  cases d <;> first | rfl | simp [Directive.isLeaf] at h

/-- A well-nested sequence leaves the regions around it open and opens no others. -/
theorem WellNested.nestAfterAll? {w : List Directive} (h : WellNested w)
    (nest : List OpenRegion) : nestAfterAll? nest w = some nest := by
  induction h generalizing nest with
  | nil => rfl
  | leaf hd _ ih => simp [StyledTemplate.nestAfterAll?, nestAfter?_leaf hd, ih]
  | condition _ _ ihv ihw =>
    simp [StyledTemplate.nestAfterAll?, nestAfterAll?_append, nestAfter?, ihv, ihw]
  | alternative _ _ _ ihu ihv ihw =>
    simp [StyledTemplate.nestAfterAll?, nestAfterAll?_append, nestAfter?, ihu, ihv, ihw]
  | loop _ _ ihv ihw =>
    simp [StyledTemplate.nestAfterAll?, nestAfterAll?_append, nestAfter?, ihv, ihw]
  | named _ _ ihv ihw =>
    simp [StyledTemplate.nestAfterAll?, nestAfterAll?_append, nestAfter?, ihv, ihw]

/-- What an open region may go on with, up to the directive that closes it. -/
inductive Closes : OpenRegion → List Directive → Prop where
  /-- The branch of a condition that is the last one. -/
  | condition {split : Bool} {v : List Directive} (hv : WellNested v) :
      Closes (.condition split) (v ++ [.ifClose])
  /-- The first branch of a condition and its alternative. -/
  | alternative {u v : List Directive} (hu : WellNested u) (hv : WellNested v) :
      Closes (.condition false) (u ++ .otherwise :: v ++ [.ifClose])
  /-- The rest of a loop. -/
  | loop {v : List Directive} (hv : WellNested v) : Closes .loop (v ++ [.eachClose])
  /-- The rest of a named block. -/
  | named {v : List Directive} (hv : WellNested v) : Closes .named (v ++ [.blockClose])

theorem Closes.prepend {r : OpenRegion} {u t : List Directive} (ht : Closes r t)
    (hu : WellNested u) : Closes r (u ++ t) := by
  cases ht with
  | condition hv =>
    rw [← List.append_assoc]
    exact .condition (hu.append hv)
  | alternative hw hv =>
    rw [← List.append_assoc, ← List.append_assoc]
    exact .alternative (hu.append hw) hv
  | loop hv =>
    rw [← List.append_assoc]
    exact .loop (hu.append hv)
  | named hv =>
    rw [← List.append_assoc]
    exact .named (hu.append hv)

/-- What some open regions may go on with until all of them are closed. -/
def Completes : List OpenRegion → List Directive → Prop
  | [], ds => WellNested ds
  | r :: outer, ds => ∃ t rest, ds = t ++ rest ∧ Closes r t ∧ Completes outer rest

theorem Completes.prepend {nest : List OpenRegion} {u ds : List Directive}
    (h : Completes nest ds) (hu : WellNested u) : Completes nest (u ++ ds) := by
  cases nest with
  | nil => exact hu.append h
  | cons r outer =>
    obtain ⟨t, rest, rfl, ht, hrest⟩ := h
    exact ⟨u ++ t, rest, (List.append_assoc ..).symm, ht.prepend hu, hrest⟩

/-- A directive goes on the front of what completes the regions that are open behind it. -/
theorem Completes.cons {nest next : List OpenRegion} {d : Directive} {ds : List Directive}
    (hd : nestAfter? nest d = some next) (h : Completes next ds) : Completes nest (d :: ds) := by
  -- a leaf changes no region; an opener pops the region it opened; the others close or split
  cases d with
  | placeholder path =>
    obtain rfl : nest = next := by simpa [nestAfter?] using hd
    exact h.prepend (.leaf rfl .nil)
  | image name =>
    obtain rfl : nest = next := by simpa [nestAfter?] using hd
    exact h.prepend (.leaf rfl .nil)
  | inherits parent =>
    obtain rfl : nest = next := by simpa [nestAfter?] using hd
    exact h.prepend (.leaf rfl .nil)
  | ifOpen c =>
    obtain rfl : .condition false :: nest = next := by simpa [nestAfter?] using hd
    obtain ⟨t, rest, rfl, ht, hrest⟩ := h
    cases ht with
    | condition hv => simpa using hrest.prepend (WellNested.condition (c := c) hv .nil)
    | alternative hu hv =>
      simpa using hrest.prepend (WellNested.alternative (c := c) hu hv .nil)
  | eachOpen list =>
    obtain rfl : .loop :: nest = next := by simpa [nestAfter?] using hd
    obtain ⟨t, rest, rfl, ht, hrest⟩ := h
    cases ht with
    | loop hv => simpa using hrest.prepend (@WellNested.loop list _ _ hv .nil)
  | blockOpen id =>
    obtain rfl : .named :: nest = next := by simpa [nestAfter?] using hd
    obtain ⟨t, rest, rfl, ht, hrest⟩ := h
    cases ht with
    | named hv => simpa using hrest.prepend (@WellNested.named id _ _ hv .nil)
  | otherwise =>
    simp only [nestAfter?] at hd
    split at hd
    · obtain rfl := Option.some.inj hd
      obtain ⟨t, rest, rfl, ht, hrest⟩ := h
      cases ht with
      | condition hv => exact ⟨_, rest, rfl, .alternative .nil hv, hrest⟩
    · simp at hd
  | ifClose =>
    simp only [nestAfter?] at hd
    split at hd
    · obtain rfl := Option.some.inj hd
      exact ⟨[.ifClose], ds, rfl, .condition .nil, h⟩
    · simp at hd
  | eachClose =>
    simp only [nestAfter?] at hd
    split at hd
    · obtain rfl := Option.some.inj hd
      exact ⟨[.eachClose], ds, rfl, .loop .nil, h⟩
    · simp at hd
  | blockClose =>
    simp only [nestAfter?] at hd
    split at hd
    · obtain rfl := Option.some.inj hd
      exact ⟨[.blockClose], ds, rfl, .named .nil, h⟩
    · simp at hd

/-- What is read until no region is open completes the regions that were open before. -/
theorem completes_of_nestAfterAll? {nest : List OpenRegion} {ds : List Directive}
    (h : nestAfterAll? nest ds = some []) : Completes nest ds := by
  induction ds generalizing nest with
  | nil =>
    obtain rfl : nest = [] := by simpa using h
    exact .nil
  | cons d ds ih =>
    obtain ⟨next, hd, hds⟩ := Option.bind_eq_some_iff.1 h
    exact .cons hd (ih hds)

/-- The sequences that can be read and leave no region open are the well-nested ones. -/
theorem nestAfterAll?_eq_nil_iff {ds : List Directive} :
    nestAfterAll? [] ds = some [] ↔ WellNested ds :=
  ⟨completes_of_nestAfterAll?, fun h => h.nestAfterAll? []⟩

/-! ## Depth -/

/-- The number of open regions after a directive, where `depth` are open before it. -/
def Directive.depthAfter (depth : Nat) : Directive → Nat
  | .ifOpen _ => depth + 1
  | .eachOpen _ => depth + 1
  | .blockOpen _ => depth + 1
  | .ifClose => depth - 1
  | .eachClose => depth - 1
  | .blockClose => depth - 1
  | _ => depth

/-- The number of regions that are open at the deepest place of a sequence, where `depth` are open
before it. -/
def deepest (depth : Nat) : List Directive → Nat
  | [] => depth
  | d :: ds => max depth (deepest (d.depthAfter depth) ds)

theorem le_deepest (depth : Nat) (ds : List Directive) : depth ≤ deepest depth ds := by
  cases ds with
  | nil => exact Nat.le_refl _
  | cons d ds => exact Nat.le_max_left _ _

/-- The number of open regions after some directives. -/
def depthAfterAll (depth : Nat) (ds : List Directive) : Nat :=
  ds.foldl (fun depth d => d.depthAfter depth) depth

theorem depthAfterAll_append (depth : Nat) (ds es : List Directive) :
    depthAfterAll depth (ds ++ es) = depthAfterAll (depthAfterAll depth ds) es := List.foldl_append

theorem deepest_append (depth : Nat) (ds es : List Directive) :
    deepest depth (ds ++ es) = max (deepest depth ds) (deepest (depthAfterAll depth ds) es) := by
  induction ds generalizing depth with
  | nil => exact (Nat.max_eq_right (le_deepest depth es)).symm
  | cons d ds ih =>
    rw [List.cons_append, deepest, deepest, ih, Nat.max_assoc]
    rfl

/-- The stack of open regions is as high as the depth says. -/
theorem depthAfter_nestAfter? {nest next : List OpenRegion} {d : Directive} (base : Nat)
    (h : nestAfter? nest d = some next) :
    d.depthAfter (base + nest.length) = base + next.length := by
  cases d <;> simp only [nestAfter?] at h <;>
    first
    | (obtain rfl := Option.some.inj h; simp [Directive.depthAfter, Nat.add_assoc])
    | (split at h <;> simp at h; subst h; simp [Directive.depthAfter])

theorem depthAfterAll_nestAfterAll? {nest next : List OpenRegion} {ds : List Directive} (base : Nat)
    (h : nestAfterAll? nest ds = some next) :
    depthAfterAll (base + nest.length) ds = base + next.length := by
  induction ds generalizing nest with
  | nil =>
    obtain rfl := Option.some.inj h
    rfl
  | cons d ds ih =>
    obtain ⟨nest₁, hd, hds⟩ := Option.bind_eq_some_iff.1 h
    rw [depthAfterAll, List.foldl_cons, depthAfter_nestAfter? base hd]
    exact ih hds

/-- A well-nested sequence leaves as many regions open as before. -/
theorem WellNested.depthAfterAll {w : List Directive} (h : WellNested w) (depth : Nat) :
    depthAfterAll depth w = depth := depthAfterAll_nestAfterAll? depth (h.nestAfterAll? [])

end StyledTemplate
