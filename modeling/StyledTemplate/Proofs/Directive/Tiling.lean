import StyledTemplate.Proofs.Directive.Tokens

/-!
# The bytes of tokens

The tokens of a text lie one after the other and take up all of it (`tiles_of_tokenize`), each the
bytes of a part that is not empty (`exists_part_of_tokenize`).
-/

namespace StyledTemplate

open Text (byteLength)

/-- The token may take up the text: it is not empty, and that of a directive starts with braces. -/
structure Token.Takes (token : Token) (part : List Char) : Prop where
  /-- The text is not empty. -/
  part_ne : part ≠ []
  /-- The text of a directive starts with two braces. -/
  braces : token.directive?.isSome = true → ∃ inner, part = '{' :: '{' :: inner

/-- The tokens take up the text behind `offset` one after the other, each a part of it. -/
inductive Tiles : Nat → List Token → List Char → Prop where
  | nil (offset : Nat) : Tiles offset [] []
  | cons {offset : Nat} {token : Token} {tokens : List Token} {part rest : List Char}
      (start : token.start = offset) (stop : token.stop = offset + byteLength part)
      (takes : token.Takes part) (behind : Tiles (offset + byteLength part) tokens rest) :
      Tiles offset (token :: tokens) (part ++ rest)

/-- The token takes up a part of the text. -/
structure Token.Covers (token : Token) (text before part after : List Char) : Prop
    extends token.Takes part where
  /-- The part stands in the text. -/
  text_eq : text = before ++ part ++ after
  /-- The token starts where the part does. -/
  start : token.start = byteLength before
  /-- The token stops where the part does. -/
  stop : token.stop = token.start + byteLength part

theorem Token.Covers.start_le_stop {token : Token} {text before part after : List Char}
    (h : token.Covers text before part after) : token.start ≤ token.stop := by
  rw [h.stop]
  exact Nat.le_add_right _ _

namespace Tiles

variable {offset : Nat} {tokens tokens' : List Token} {cs ds : List Char}

theorem textToken (offset : Nat) (cs : List Char) :
    Tiles offset (textToken offset cs) cs := by
  unfold StyledTemplate.textToken
  by_cases hcs : cs = []
  · rw [if_pos hcs, hcs]
    exact .nil offset
  · rw [if_neg hcs]
    have htakes : Token.Takes ⟨.text (String.ofList cs), offset, offset + byteLength cs⟩ cs :=
      ⟨hcs, nofun⟩
    have hone := cons rfl rfl htakes (.nil _)
    rw [List.append_nil] at hone
    exact hone

theorem append (h : Tiles offset tokens cs) (h' : Tiles (offset + byteLength cs) tokens' ds) :
    Tiles offset (tokens ++ tokens') (cs ++ ds) := by
  induction h with
  | nil offset => exact h'
  | cons start stop takes behind ih =>
    rw [Text.byteLength_append, ← Nat.add_assoc] at h'
    rw [List.append_assoc]
    exact .cons start stop takes (ih h')

/-- Each of the tokens takes up a part of the text. -/
theorem exists_part (h : Tiles offset tokens cs) (front : List Char)
    (hoffset : offset = byteLength front) :
    ∀ token ∈ tokens, ∃ before part after, token.Covers (front ++ cs) before part after := by
  induction h generalizing front with
  | nil offset => exact List.forall_mem_nil _
  | cons start stop takes behind ih =>
    rw [List.forall_mem_cons]
    refine ⟨⟨front, _, _, takes, (List.append_assoc _ _ _).symm, start.trans hoffset, ?_⟩, ?_⟩
    · rw [stop, start]
    · rw [← List.append_assoc]
      exact ih _ (by rw [Text.byteLength_append, hoffset])

end Tiles

theorem tiles_of_tokensFrom {strict : Bool} {offset : Nat} {literal cs : List Char}
    {tokens : List Token} (h : tokensFrom strict offset literal cs = .ok tokens) :
    Tiles offset tokens (literal ++ cs) := by
  induction cs using candidate_induction generalizing offset literal tokens with
  | none cs hc =>
    rw [tokensFrom_of_none hc] at h
    obtain rfl := Except.ok.inj h
    exact .textToken offset _
  | some cs c hc ih =>
    have htext := candidate?_eq_some hc
    rcases tokensFrom_ok_cases hc h with ⟨d, rest, -, hrest, rfl⟩ | ⟨-, -, hrest⟩
    · have htakes : Token.Takes ⟨.directive d, offset + byteLength (literal ++ c.before),
          offset + byteLength (literal ++ c.before) + byteLength c.source⟩ c.source :=
        ⟨by simp [Candidate.source], fun _ => ⟨_, rfl⟩⟩
      have hdirective := Tiles.cons rfl rfl htakes (ih hrest)
      have hall := (Tiles.textToken offset (literal ++ c.before)).append hdirective
      rw [htext]
      simpa using hall
    · have hall := ih hrest
      rw [htext]
      simpa using hall

/-- The tokens of a text take up all of it. -/
theorem tiles_of_tokenize {strict : Bool} {text : List Char} {tokens : List Token}
    (h : tokenize strict text = .ok tokens) : Tiles 0 tokens text := tiles_of_tokensFrom h

/-- Each token of a text takes up a part of it. -/
theorem exists_part_of_tokenize {strict : Bool} {text : List Char} {tokens : List Token}
    (h : tokenize strict text = .ok tokens) :
    ∀ token ∈ tokens, ∃ before part after, token.Covers text before part after :=
  (tiles_of_tokenize h).exists_part [] rfl

end StyledTemplate
