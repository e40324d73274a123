import StyledTemplate.Proofs.Engine.Reached
import StyledTemplate.Proofs.Inheritance.Owners
import StyledTemplate.Proofs.Template.Bodily

/-!
# Neighbouring blocks of inherited templates

A template without ancestors has nothing loose in it, so it is rendered block by block. A chain may
have: the body of a named block within a line may take the place of a block between paragraphs. Only
such bodies can make two neighbouring blocks share a paragraph (`renderDocument_siblings`).
-/

namespace StyledTemplate

section Resolves

variable {defs : String → Option Override}

/-- The template of one of the definitions. -/
def OwnsDefinition (defs : String → Option Override) (owner : Option String) : Prop :=
  ∃ id override, defs id = some override ∧ owner = some override.owner

theorem owner_of_mem_leaf {block : Block} (hleaf : ∀ owner, block.looseOwners owner = [owner])
    {owner o : Option String} (ho : o ∈ block.looseOwners owner) :
    o = owner ∧ ¬ Bodily [block] := by
  rw [hleaf, List.mem_singleton] at ho
  rw [bodily_singleton_iff, hleaf]
  exact ⟨ho, List.cons_ne_nil _ _⟩

mutual

theorem BlockResolves.looseOwners : ∀ {block shown : Block}, BlockResolves defs block shown →
    ∀ owner, ∀ o ∈ shown.looseOwners owner,
      (o = owner ∧ ¬ Bodily [block]) ∨ OwnsDefinition defs o
  | .named id _ _ _, _, .replaced hdef hbody, owner, o, ho => by
    rw [Block.looseOwners] at ho
    rcases hbody.looseOwners _ o ho with ⟨rfl, -⟩ | howns
    · exact .inr ⟨id, _, hdef, rfl⟩
    · exact .inr howns
  | _, _, .kept _ hbody, owner, o, ho => by
    rw [Block.looseOwners] at ho
    rw [bodily_named_iff]
    exact hbody.looseOwners owner o ho
  | _, _, .whenTrue hthen, owner, o, ho => by
    rw [Block.looseOwners] at ho
    rw [bodily_when_iff]
    exact hthen.looseOwners owner o ho
  | _, _, .branches hthen helse, owner, o, ho => by
    rw [Block.looseOwners, List.mem_append] at ho
    rw [bodily_branches_iff, not_and_or]
    rcases ho with ho | ho
    · exact (hthen.looseOwners owner o ho).imp_left (And.imp_right .inl)
    · exact (helse.looseOwners owner o ho).imp_left (And.imp_right .inr)
  | _, _, .loop hbody, owner, o, ho => by
    rw [Block.looseOwners] at ho
    rw [bodily_loop_iff]
    exact hbody.looseOwners owner o ho
  | _, _, .paragraph _, owner, o, ho => by
    rw [Block.looseOwners] at ho
    cases ho
  | _, _, .table _, owner, o, ho => by
    rw [Block.looseOwners] at ho
    cases ho
  | _, _, .inherits _ _, owner, o, ho => by
    rw [Block.looseOwners] at ho
    cases ho
  | _, _, .text _ _, owner, o, ho =>
    .inl (owner_of_mem_leaf (fun owner => by rw [Block.looseOwners]) ho)
  | _, _, .placeholder _ _ _, owner, o, ho =>
    .inl (owner_of_mem_leaf (fun owner => by rw [Block.looseOwners]) ho)
  | _, _, .image _ _ _, owner, o, ho =>
    .inl (owner_of_mem_leaf (fun owner => by rw [Block.looseOwners]) ho)
  | _, _, .static _, owner, o, ho =>
    .inl (owner_of_mem_leaf (fun owner => by rw [Block.looseOwners]) ho)

/-- What is loose in a resolved tree stood loose in the tree before, or has been taken from a
definition. -/
theorem Resolves.looseOwners : ∀ {blocks shown : List Block}, Resolves defs blocks shown →
    ∀ owner, ∀ o ∈ looseOwners owner shown,
      (o = owner ∧ ¬ Bodily blocks) ∨ OwnsDefinition defs o
  | _, _, .nil, owner, o, ho => by
    rw [StyledTemplate.looseOwners] at ho
    cases ho
  | _, _, .cons hblock hrest, owner, o, ho => by
    rw [StyledTemplate.looseOwners, List.mem_append] at ho
    rw [bodily_cons_iff, not_and_or]
    rcases ho with ho | ho
    · exact (hblock.looseOwners owner o ho).imp_left (And.imp_right .inl)
    · exact (hrest.looseOwners owner o ho).imp_left (And.imp_right .inr)

end

end Resolves

/-! ## Chains -/

theorem Template.IsParsed.bodily {t : Template} (h : t.IsParsed) : Bodily t.blocks := by
  obtain ⟨settings, name, document, hdocument⟩ := h
  exact Template.bodily_of_ofDocument hdocument

/-- Whatever is loose in what a chain shows has been taken from a template before the last one. -/
theorem owner_mem_of_resolveChain {chain : List Template} (hparsed : ∀ t ∈ chain, t.IsParsed) :
    ∀ o ∈ looseOwners none (resolveChain chain), ∃ t ∈ chain.dropLast, o = some t.name := by
  intro o ho
  rcases List.eq_nil_or_concat chain with rfl | ⟨descendants, root, rfl⟩
  · rw [resolveChain, List.reverse_nil, looseOwners] at ho
    cases ho
  · rw [List.concat_eq_append] at hparsed ho ⊢
    have hroot := (hparsed root (by simp)).bodily
    rcases (resolves_chain hparsed).looseOwners none o ho with ⟨-, hloose⟩ | howns
    · exact absurd hroot hloose
    · obtain ⟨id, override, hdef, rfl⟩ := howns
      obtain ⟨t, ht, hname, -⟩ := exists_of_definition? hdef
      rw [List.dropLast_concat]
      exact ⟨t, ht, congrArg some hname⟩

/-- The blocks that a chain of parsed templates shows are rendered one by one: wherever they are
split, the parts show the body together, and they share a paragraph only if there are loose runs on
both sides. All that can give loose runs has been taken from templates before the last one. -/
theorem renderDocument_siblings {chain : List Template} (hparsed : ∀ t ∈ chain, t.IsParsed)
    {as bs : List Block} (hsplit : resolveChain chain = as ++ bs) {scene : Scene} {d : Document}
    (h : renderDocument scene (resolveChain chain) = .ok d) :
    ∃ da db, renderDocument scene as = .ok da ∧ renderDocument scene bs = .ok db ∧
      (¬ (EndsLoose scene as ∧ StartsLoose scene bs) → d.body = da.body ++ db.body) ∧
      (EndsLoose scene as → StartsLoose scene bs → da.Joined db d) ∧
      (EndsLoose scene as → looseOwners none as ≠ []) ∧
      (StartsLoose scene bs → looseOwners none bs ≠ []) ∧
      ∀ o ∈ looseOwners none as ++ looseOwners none bs, ∃ t ∈ chain.dropLast, o = some t.name := by
  have howners := owner_mem_of_resolveChain hparsed
  rw [hsplit, looseOwners_append] at howners
  rw [hsplit] at h
  obtain ⟨da, db, hda, hdb, happend, hjoined⟩ := renderDocument_append h
  exact ⟨da, db, hda, hdb, happend, hjoined, fun hends => hends.looseOwners_ne_nil none,
    fun hstarts => hstarts.looseOwners_ne_nil none, howners⟩

/-- Two places, each in a line of its own. -/
def twoPlacesDocument : Document := .ofText <| "\n".intercalate
  ["\x7b\x7b#block a\x7d\x7d", "\x7b\x7b/block\x7d\x7d", "\x7b\x7b#block b\x7d\x7d", "\x7b\x7b/block\x7d\x7d"]

/-- Words for both places, in one line. -/
def oneLineDocument : Document := .ofText <| "\n".intercalate
  ["\x7b\x7bextends places\x7d\x7d",
    "\x7b\x7b#block a\x7d\x7done\x7b\x7b/block\x7d\x7d \x7b\x7b#block b\x7d\x7dtwo\x7b\x7b/block\x7d\x7d"]

theorem exists_oneLine : ∃ (line places : Template) (as bs : List Block) (scene : Scene)
    (d da db : Document), Template.ofDocument {} "line" oneLineDocument = .ok line ∧
    Template.ofDocument {} "places" twoPlacesDocument = .ok places ∧
    resolveChain [line, places] = as ++ bs ∧
    renderDocument scene (resolveChain [line, places]) = .ok d ∧
    renderDocument scene as = .ok da ∧ renderDocument scene bs = .ok db ∧
    d.body.length = 1 ∧ da.body.length = 1 ∧ db.body.length = 1 := by
  let scene : Scene := (Engine.ofSettings {} default).scene {} "places"
  have hrun : (Template.ofDocument {} "line" oneLineDocument).toOption.bind (fun line =>
      (Template.ofDocument {} "places" twoPlacesDocument).toOption.bind fun places =>
      (renderDocument scene (resolveChain [line, places])).toOption.bind fun d =>
      (renderDocument scene ((resolveChain [line, places]).take 1)).toOption.bind fun da =>
      (renderDocument scene ((resolveChain [line, places]).drop 1)).toOption.map fun db =>
        (d.body.length, da.body.length, db.body.length)) = some (1, 1, 1) := by decide +kernel
  obtain ⟨line, hline, hrun⟩ := Option.bind_eq_some_iff.1 hrun
  obtain ⟨places, hplaces, hrun⟩ := Option.bind_eq_some_iff.1 hrun
  obtain ⟨d, hd, hrun⟩ := Option.bind_eq_some_iff.1 hrun
  obtain ⟨da, hda, hrun⟩ := Option.bind_eq_some_iff.1 hrun
  obtain ⟨db, hdb, hlengths⟩ := Option.map_eq_some_iff.1 hrun
  obtain ⟨hd', hlengths⟩ := Prod.mk.inj hlengths
  obtain ⟨hda', hdb'⟩ := Prod.mk.inj hlengths
  exact ⟨line, places, _, _, scene, d, da, db, toOption_eq_some_iff.1 hline,
    toOption_eq_some_iff.1 hplaces, (List.take_append_drop 1 _).symm, toOption_eq_some_iff.1 hd,
    toOption_eq_some_iff.1 hda, toOption_eq_some_iff.1 hdb, hd', hda', hdb'⟩

/-- Both words stand in one paragraph, and in two if the blocks are rendered apart. -/
theorem oneLine_shares_paragraph : ∃ (line places : Template) (as bs : List Block) (scene : Scene)
    (d da db : Document), Template.ofDocument {} "line" oneLineDocument = .ok line ∧
    Template.ofDocument {} "places" twoPlacesDocument = .ok places ∧
    resolveChain [line, places] = as ++ bs ∧
    renderDocument scene (resolveChain [line, places]) = .ok d ∧
    renderDocument scene as = .ok da ∧ renderDocument scene bs = .ok db ∧
    d.body ≠ da.body ++ db.body := by
  obtain ⟨line, places, as, bs, scene, d, da, db, hline, hplaces, hsplit, hd, hda, hdb, hlength,
    hlengthA, hlengthB⟩ := exists_oneLine
  refine ⟨line, places, as, bs, scene, d, da, db, hline, hplaces, hsplit, hd, hda, hdb, ?_⟩
  intro happend
  rw [happend, List.length_append, hlengthA, hlengthB] at hlength
  cases hlength

/-- The paragraph that the words share has the runs of both. -/
theorem oneLine_siblings : ∃ (line places : Template) (as bs : List Block) (scene : Scene)
    (d da db : Document), (∀ t ∈ [line, places], t.IsParsed) ∧
    resolveChain [line, places] = as ++ bs ∧
    renderDocument scene (resolveChain [line, places]) = .ok d ∧
    renderDocument scene as = .ok da ∧ renderDocument scene bs = .ok db ∧ da.Joined db d ∧
    (∃ t ∈ [line], some t.name ∈ looseOwners none as) ∧
    ∃ t ∈ [line], some t.name ∈ looseOwners none bs := by
  obtain ⟨line, places, as, bs, scene, d, da, db, hline, hplaces, hsplit, hd, hda, hdb, hlength,
    hlengthA, hlengthB⟩ := exists_oneLine
  have hparsed : ∀ t ∈ [line, places], t.IsParsed := by
    rw [List.forall_mem_cons, List.forall_mem_singleton]
    exact ⟨⟨_, _, _, hline⟩, ⟨_, _, _, hplaces⟩⟩
  obtain ⟨da', db', hda', hdb', happend, hjoined, hends, hstarts, howners⟩ :=
    renderDocument_siblings hparsed hsplit hd
  obtain rfl := Except.ok.inj (hda.symm.trans hda')
  obtain rfl := Except.ok.inj (hdb.symm.trans hdb')
  have hboth : EndsLoose scene as ∧ StartsLoose scene bs := by
    refine Classical.byContradiction fun hnot => ?_
    rw [happend hnot, List.length_append, hlengthA, hlengthB] at hlength
    cases hlength
  rw [List.forall_mem_append] at howners
  refine ⟨line, places, as, bs, scene, d, da, db, hparsed, hsplit, hd, hda, hdb,
    hjoined hboth.1 hboth.2, ?_, ?_⟩
  · obtain ⟨o, ho⟩ := List.exists_mem_of_ne_nil _ (hends hboth.1)
    obtain ⟨t, ht, rfl⟩ := howners.1 o ho
    exact ⟨t, ht, ho⟩
  · obtain ⟨o, ho⟩ := List.exists_mem_of_ne_nil _ (hstarts hboth.2)
    obtain ⟨t, ht, rfl⟩ := howners.2 o ho
    exact ⟨t, ht, ho⟩

end StyledTemplate
