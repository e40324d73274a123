import Mathlib.Data.List.Chain
import StyledTemplate.Proofs.Directive.Tokens
import StyledTemplate.Proofs.Text.Trim

/-!
# Written directives

`Directive.write` writes a directive in braces, with any blank characters next to the braces and
around its argument, and ids in double quotes. `tokenize` undoes it: directives written one after
the other, with literal text between them, are split into just these tokens
(`tokenize_writeAll`). Literal text has to be told from what stands around it, so it has no two
opening braces, also none together with a directive behind it.
-/

namespace StyledTemplate

open Text (byteLength isBlank allBlank trim isValidName isNamePart isNameStart Compact)

/-! ## Writing -/

/-- The blank characters that a directive is written with. -/
structure Padding where
  /-- Between the opening braces and the directive. -/
  left : List Char := []
  /-- Between a keyword and its argument. -/
  gap : List Char := [' ']
  /-- Between the directive and the closing braces. -/
  right : List Char := []
  /-- What stands behind the opening braces is blank. -/
  left_blank : allBlank left = true := by decide
  /-- What stands behind the keyword is blank. -/
  gap_blank : allBlank gap = true := by decide
  /-- Something stands behind the keyword. -/
  gap_ne : gap ≠ [] := by decide
  /-- What stands before the closing braces is blank. -/
  right_blank : allBlank right = true := by decide

/-- A text in double quotes. -/
def inQuotes (cs : List Char) : List Char := '"' :: (cs ++ ['"'])

/-- The word that a directive starts with: the path of a placeholder, and the keyword of any other
directive. -/
def Directive.word : Directive → String
  | .placeholder path => path
  | .image _ => "#image"
  | .ifOpen _ => "#if"
  | .otherwise => "else"
  | .ifClose => "/if"
  | .eachOpen _ => "#each"
  | .eachClose => "/each"
  | .blockOpen _ => "#block"
  | .blockClose => "/block"
  | .inherits _ => "extends"

/-- The argument of a directive, if it takes one. Ids are written in quotes. -/
def Directive.argument? : Directive → Option (List Char)
  | .image name => some name.toList
  | .ifOpen condition => some condition.toList
  | .eachOpen list => some list.toList
  | .blockOpen id => some (inQuotes id.toList)
  | .inherits parent => some (inQuotes parent.toList)
  | _ => none

/-- What stands between the braces of a directive, with `gap` before its argument. -/
def Directive.content (gap : List Char) (d : Directive) : List Char :=
  match d.argument? with
  | none => d.word.toList
  | some argument => d.word.toList ++ gap ++ argument

/-- What stands between the braces, with the blank characters next to them. -/
def Directive.inner (pad : Padding) (d : Directive) : List Char :=
  pad.left ++ d.content pad.gap ++ pad.right

/-- The written directive. -/
def Directive.write (pad : Padding) (d : Directive) : List Char :=
  '{' :: '{' :: (d.inner pad ++ ['}', '}'])

/-- A written token. -/
def TokenKind.write (pad : Padding) : TokenKind → List Char
  | .text s => s.toList
  | .directive d => d.write pad

/-- Some tokens, written one after the other. -/
def writeAll (ks : List (TokenKind × Padding)) : List Char := ks.flatMap fun k => k.1.write k.2

/-- The tokens that are written, where the first one starts at `offset`. Each takes up the bytes it
is written with. -/
def tokensAt (offset : Nat) : List (TokenKind × Padding) → List Token
  | [] => []
  | (kind, pad) :: ks =>
    ⟨kind, offset, offset + byteLength (kind.write pad)⟩ ::
      tokensAt (offset + byteLength (kind.write pad)) ks

/-! ## What can be written -/

/-- May the text be the id of a block or the name of a parent? -/
def IsId (id : String) : Prop := id ≠ "" ∧ ∀ c ∈ id.toList, isIdChar c = true

/-- The names and ids of a directive are proper ones. A placeholder is not called like a directive
without a `#` in front. -/
def Directive.IsProper : Directive → Prop
  | .placeholder path => isValidName path.toList = true ∧ path ≠ "else" ∧ path ≠ "extends"
  | .image name => isValidName name.toList = true
  | .ifOpen condition => isValidName condition.toList = true
  | .eachOpen list => isValidName list.toList = true
  | .blockOpen id => IsId id
  | .inherits parent => IsId parent
  | .otherwise | .ifClose | .eachClose | .blockClose => True

/-- Literal text is not empty and has no two opening braces. -/
def TokenKind.IsProper : TokenKind → Prop
  | .text s => s ≠ "" ∧ ¬ ['{', '{'] <:+: s.toList
  | .directive d => d.IsProper

/-- May the second token stand right behind the first? Literal text is one token, and does not end
in a brace that would open a directive one character too early. -/
def TokenKind.MayPrecede : TokenKind → TokenKind → Prop
  | .text _, .text _ => False
  | .text s, .directive _ => s.toList.getLast? ≠ some '{'
  | .directive _, _ => True

theorem isId_iff {id : String} : IsId id ↔ id ≠ "" ∧ id.toList.all isIdChar = true := by
  rw [IsId, List.all_eq_true]

instance (id : String) : Decidable (IsId id) := decidable_of_iff _ isId_iff.symm

instance : (d : Directive) → Decidable d.IsProper
  | .placeholder _ => inferInstanceAs (Decidable (_ ∧ _ ∧ _))
  | .image _ | .ifOpen _ | .eachOpen _ => inferInstanceAs (Decidable (_ = true))
  | .blockOpen id | .inherits id => inferInstanceAs (Decidable (IsId id))
  | .otherwise | .ifClose | .eachClose | .blockClose => inferInstanceAs (Decidable True)

instance : (kind : TokenKind) → Decidable kind.IsProper
  | .text _ => inferInstanceAs (Decidable (_ ∧ ¬ _))
  | .directive d => inferInstanceAs (Decidable d.IsProper)

instance : (first second : TokenKind) → Decidable (first.MayPrecede second)
  | .text _, .text _ => inferInstanceAs (Decidable False)
  | .text _, .directive _ => inferInstanceAs (Decidable (_ ≠ _))
  | .directive _, .text _ | .directive _, .directive _ => inferInstanceAs (Decidable True)

/-! ## Reading the content -/

/-- A directive without an argument has no blank character. -/
theorem not_isBlank_of_plainDirective? {s : String} {d : Directive}
    (h : plainDirective? s = some d) : s.toList.any isBlank = false := by
  unfold plainDirective? at h
  split at h
  case h_5 => cases h
  all_goals decide

/-- A keyword and its argument, with blank characters between them. -/
theorem ofContent_keyword {keyword : String} {gap argument : List Char}
    {read : List Char → Option Directive} {d : Directive}
    (hkeyword : keyword.toList.any isBlank = false) (hgap : allBlank gap = true)
    (hne : gap ≠ []) (hargument : Compact argument) (hread : keyword? keyword = some read)
    (hd : read argument = some d) :
    Reading.ofContent (keyword.toList ++ gap ++ argument) = .directive d := by
  obtain ⟨c, gap', rfl⟩ := List.exists_cons_of_ne_nil hne
  have hblank := Text.forall_mem_of_allBlank hgap
  have hplain :
      plainDirective? (String.ofList (keyword.toList ++ c :: gap' ++ argument)) = none := by
    rw [Option.eq_none_iff_forall_ne_some]
    intro d' hd'
    have hno := List.any_eq_false.1 (not_isBlank_of_plainDirective? hd') c (by simp)
    exact hno (hblank c List.mem_cons_self)
  have hfront : ∀ x ∈ keyword.toList, (!isBlank x) = true := fun x hx => by
    simpa using List.any_eq_false.1 hkeyword x hx
  have hback : ∀ x ∈ (c :: gap' ++ argument).head?, (!isBlank x) = false := by
    intro x hx
    obtain rfl := Option.some.inj hx
    simp [hblank c List.mem_cons_self]
  have htrim : trim (c :: gap' ++ argument) = argument := by
    have hpadded : trim (c :: gap' ++ argument ++ []) = argument :=
      Text.trim_padded hgap rfl hargument
    rwa [List.append_nil] at hpadded
  unfold Reading.ofContent
  rw [hplain]
  dsimp only
  rw [List.append_assoc, Text.takeWhile_append_of_head hfront hback,
    Text.dropWhile_append_of_head hfront hback, String.ofList_toList, hread, htrim]
  dsimp only
  rw [hd]

theorem unquoteWith?_of_head {quote : Char} {cs : List Char} (h : ∀ c ∈ cs.head?, c ≠ quote) :
    unquoteWith? quote cs = none := by
  cases cs with
  | nil => rfl
  | cons c cs => rw [unquoteWith?, if_neg fun hc => h c rfl hc.1]

/-- A name is read as it stands. -/
theorem nameArgument?_of_isValidName {name : String} (h : isValidName name.toList = true) :
    nameArgument? name.toList = some name := by
  have hquote : ∀ quote, isNameStart quote = false → unquoteWith? quote name.toList = none := by
    intro quote hno
    refine unquoteWith?_of_head fun c hc => ?_
    rintro rfl
    rw [Text.isNameStart_of_isValidName h c hc] at hno
    cases hno
  have hnone : unquote? name.toList = none := by
    rw [unquote?, hquote '"' (by decide), hquote '\'' (by decide)]
    rfl
  rw [nameArgument?, hnone, Option.getD_none, if_pos h, String.ofList_toList]

theorem compact_inQuotes (cs : List Char) : Compact (inQuotes cs) where
  ne := by simp [inQuotes]
  head c hc := by
    obtain rfl := Option.some.inj hc
    decide
  last c hc := by
    rw [inQuotes, ← List.cons_append, List.getLast?_concat] at hc
    obtain rfl := Option.some.inj hc
    decide

/-- A quoted id is read without its quotes. -/
theorem idArgument?_inQuotes {id : String} (h : IsId id) :
    idArgument? (inQuotes id.toList) = some id := by
  have hunquote : unquote? (inQuotes id.toList) = some id.toList := by
    rw [unquote?, inQuotes, unquoteWith?, if_pos ⟨rfl, List.getLast?_concat⟩,
      List.dropLast_concat]
    rfl
  have hne : id.toList ≠ [] := fun hnil => h.1 (String.toList_eq_nil_iff.1 hnil)
  simp only [idArgument?, hunquote]
  rw [if_pos ⟨hne, List.all_eq_true.2 h.2⟩, String.ofList_toList]

/-- A placeholder is read from its path. -/
theorem ofContent_path {path : String} (h : isValidName path.toList = true) (helse : path ≠ "else")
    (hextends : path ≠ "extends") :
    Reading.ofContent path.toList = .directive (.placeholder path) := by
  have hstart : ∀ c : Char, isNameStart c = false → path.toList.head? ≠ some c := by
    intro c hno hc
    rw [Text.isNameStart_of_isValidName h c hc] at hno
    cases hno
  have hplain : plainDirective? path = none := by
    unfold plainDirective?
    split
    · exact absurd rfl helse
    · exact absurd rfl (hstart '/' (by decide))
    · exact absurd rfl (hstart '/' (by decide))
    · exact absurd rfl (hstart '/' (by decide))
    · rfl
  have hkeyword : keyword? path = none := by
    unfold keyword?
    split
    · exact absurd rfl (hstart '#' (by decide))
    · exact absurd rfl (hstart '#' (by decide))
    · exact absurd rfl (hstart '#' (by decide))
    · exact absurd rfl (hstart '#' (by decide))
    · exact absurd rfl hextends
    · rfl
  have hall : ∀ c ∈ path.toList, (!isBlank c) = true := fun c hc => by
    simp [Text.isBlank_of_isNamePart (Text.isNamePart_of_isValidName h c hc)]
  have hnil : ∀ c ∈ ([] : List Char).head?, (!isBlank c) = false := by simp
  have htake : path.toList.takeWhile (!isBlank ·) = path.toList := by
    simpa using Text.takeWhile_append_of_head hall hnil
  have hdrop : path.toList.dropWhile (!isBlank ·) = [] := by
    simpa using Text.dropWhile_append_of_head hall hnil
  unfold Reading.ofContent
  rw [String.ofList_toList, hplain]
  dsimp only
  rw [htake, hdrop, String.ofList_toList, hkeyword]
  dsimp only
  rw [if_pos ⟨rfl, h⟩]

/-- The content of a directive is read as that directive. -/
theorem Directive.ofContent_content {d : Directive} (h : d.IsProper) {gap : List Char}
    (hgap : allBlank gap = true) (hne : gap ≠ []) :
    Reading.ofContent (d.content gap) = .directive d := by
  have hname : ∀ (keyword : String) (make : String → Directive) {name : String},
      isValidName name.toList = true → keyword.toList.any isBlank = false →
      keyword? keyword = some (fun argument => (nameArgument? argument).map make) →
      Reading.ofContent (keyword.toList ++ gap ++ name.toList) = .directive (make name) :=
    fun keyword make name hvalid hkeyword hread =>
      ofContent_keyword hkeyword hgap hne (Text.compact_of_isValidName hvalid) hread
        (by rw [nameArgument?_of_isValidName hvalid, Option.map_some])
  have hid : ∀ (keyword : String) (make : String → Directive) {id : String},
      IsId id → keyword.toList.any isBlank = false →
      keyword? keyword = some (fun argument => (idArgument? argument).map make) →
      Reading.ofContent (keyword.toList ++ gap ++ inQuotes id.toList) = .directive (make id) :=
    fun keyword make id hproper hkeyword hread =>
      ofContent_keyword hkeyword hgap hne (compact_inQuotes _) hread
        (by rw [idArgument?_inQuotes hproper, Option.map_some])
  cases d with
  | placeholder path => exact ofContent_path h.1 h.2.1 h.2.2
  | image name => exact hname "#image" .image h (by decide) rfl
  | ifOpen condition => exact hname "#if" .ifOpen h (by decide) rfl
  | otherwise => rfl
  | ifClose => rfl
  | eachOpen list => exact hname "#each" .eachOpen h (by decide) rfl
  | eachClose => rfl
  | blockOpen id => exact hid "#block" .blockOpen h (by decide) rfl
  | blockClose => rfl
  | inherits parent => exact hid "extends" .inherits h (by decide) rfl

/-! ## Finding the braces -/

/-- A written directive behind literal text is found, whatever follows it. -/
theorem candidate?_source {text inner : List Char}
    (htext : splitAtPair? '{' (text ++ ['{']) = none) (hinner : NoBraces inner)
    (rest : List Char) :
    candidate? (text ++ '{' :: '{' :: (inner ++ '}' :: '}' :: rest)) =
      some ⟨text, inner, rest⟩ := by
  have hlast : splitAtPair? '{' inner.reverse = none :=
    splitAtPair?_eq_none_of_append (splitAtPair?_concat_of_not_mem (by simpa using hinner.1))
  rw [candidate?_of_pairs htext (splitAtPair?_concat_of_not_mem hinner.2),
    Candidate.ofPairs_of_none hlast]

theorem NoBraces.append {v w : List Char} (hv : NoBraces v) (hw : NoBraces w) :
    NoBraces (v ++ w) := by
  simp only [NoBraces, List.mem_append, not_or]
  exact ⟨⟨hv.1, hw.1⟩, hv.2, hw.2⟩

theorem noBraces_of_isValidName {name : List Char} (h : isValidName name = true) :
    NoBraces name :=
  ⟨Text.not_mem_of_isValidName h (by decide), Text.not_mem_of_isValidName h (by decide)⟩

theorem noBraces_inQuotes {id : String} (h : IsId id) : NoBraces (inQuotes id.toList) := by
  have hno : ∀ c, isIdChar c = false → c ≠ '"' → c ∉ inQuotes id.toList := by
    intro c hc hquote hmem
    have hin : c ∈ id.toList := by simpa [inQuotes, hquote] using hmem
    rw [h.2 c hin] at hc
    cases hc
  exact ⟨hno '{' (by decide) (by decide), hno '}' (by decide) (by decide)⟩

/-! ## The parts of a directive -/

namespace Directive

variable {d : Directive}

theorem word_compact (h : d.IsProper) : Compact d.word.toList := by
  cases d with
  | placeholder path => exact Text.compact_of_isValidName h.1
  | _ =>
    dsimp only [word]
    decide

theorem word_noBraces (h : d.IsProper) : NoBraces d.word.toList := by
  cases d with
  | placeholder path => exact noBraces_of_isValidName h.1
  | _ => constructor <;> dsimp only [word] <;> decide

theorem argument_compact (h : d.IsProper) {argument : List Char}
    (ha : d.argument? = some argument) : Compact argument := by
  cases d with
  | image name | ifOpen name | eachOpen name =>
    obtain rfl := Option.some.inj ha
    exact Text.compact_of_isValidName h
  | blockOpen id | inherits id =>
    obtain rfl := Option.some.inj ha
    exact compact_inQuotes _
  | _ => cases ha

theorem argument_noBraces (h : d.IsProper) {argument : List Char}
    (ha : d.argument? = some argument) : NoBraces argument := by
  cases d with
  | image name | ifOpen name | eachOpen name =>
    obtain rfl := Option.some.inj ha
    exact noBraces_of_isValidName h
  | blockOpen id | inherits id =>
    obtain rfl := Option.some.inj ha
    exact noBraces_inQuotes h
  | _ => cases ha

theorem content_compact (h : d.IsProper) (gap : List Char) : Compact (d.content gap) := by
  unfold content
  cases ha : d.argument? with
  | none => exact word_compact h
  | some argument =>
    have hword := word_compact h
    have hargument := argument_compact h ha
    dsimp only
    refine ⟨by simp [hword.ne], fun c hc => hword.head c ?_, fun c hc => hargument.last c ?_⟩
    · rwa [List.append_assoc, List.head?_append,
        Option.or_of_isSome (by simpa using hword.ne)] at hc
    · rwa [List.getLast?_append, Option.or_of_isSome (by simpa using hargument.ne)] at hc

theorem noBraces_inner (h : d.IsProper) (pad : Padding) : NoBraces (d.inner pad) := by
  have hcontent : NoBraces (d.content pad.gap) := by
    unfold content
    cases ha : d.argument? with
    | none => exact word_noBraces h
    | some argument =>
      exact ((word_noBraces h).append (noBraces_of_allBlank pad.gap_blank)).append
        (argument_noBraces h ha)
  exact ((noBraces_of_allBlank pad.left_blank).append hcontent).append
    (noBraces_of_allBlank pad.right_blank)

/-- What stands between the braces of a written directive is read as that directive. -/
theorem ofContent_trim_inner (h : d.IsProper) (pad : Padding) :
    Reading.ofContent (trim (d.inner pad)) = .directive d := by
  rw [inner, Text.trim_padded pad.left_blank pad.right_blank (content_compact h _)]
  exact ofContent_content h pad.gap_blank pad.gap_ne

end Directive

/-! ## Reading what is written -/

section Reading

variable (strict : Bool) (offset : Nat)

/-- A written directive behind literal text is read as the two tokens, and what follows is read by
itself. -/
theorem tokensFrom_write {text : List Char} {d : Directive} (hd : d.IsProper) (pad : Padding)
    (htext : splitAtPair? '{' (text ++ ['{']) = none) (rest : List Char) :
    tokensFrom strict offset [] (text ++ d.write pad ++ rest) =
      (tokensFrom strict (offset + byteLength text + byteLength (d.write pad)) [] rest).map
        fun tokens => textToken offset text ++
          ⟨.directive d, offset + byteLength text,
            offset + byteLength text + byteLength (d.write pad)⟩ :: tokens := by
  have hfound : candidate? (text ++ d.write pad ++ rest) = some ⟨text, d.inner pad, rest⟩ := by
    have := candidate?_source htext (Directive.noBraces_inner hd pad) rest
    rw [← this]
    simp [Directive.write]
  exact tokensFrom_of_directive hfound (Directive.ofContent_trim_inner hd pad)

/-- Literal text at the end is read as one token. -/
theorem tokensFrom_text {text : List Char} (h : splitAtPair? '{' text = none) :
    tokensFrom strict offset [] text = .ok (textToken offset text) :=
  tokensFrom_of_none (by simp [candidate?, h])

theorem textToken_of_ne {s : String} (h : s ≠ "") (offset : Nat) :
    textToken offset s.toList = [⟨.text s, offset, offset + byteLength s.toList⟩] := by
  have hne : s.toList ≠ [] := fun hnil => h (String.toList_eq_nil_iff.1 hnil)
  rw [textToken, if_neg hne, String.ofList_toList]

/-- Written tokens are read as they were, from any offset on. -/
theorem tokensFrom_writeAll (strict : Bool) : ∀ (ks : List (TokenKind × Padding)) (offset : Nat),
    (∀ k ∈ ks, k.1.IsProper) → ks.IsChain (fun a b => a.1.MayPrecede b.1) →
    tokensFrom strict offset [] (writeAll ks) = .ok (tokensAt offset ks)
  | [], offset, _, _ => tokensFrom_of_none rfl
  | (.directive d, pad) :: ks, offset, hproper, hchain => by
    rw [List.forall_mem_cons] at hproper
    have hrest := tokensFrom_writeAll strict ks (offset + byteLength (d.write pad)) hproper.2
      hchain.tail
    have hnil : splitAtPair? '{' ([] ++ ['{']) = none := rfl
    have hwrite := tokensFrom_write strict offset hproper.1 pad hnil (writeAll ks)
    rw [List.nil_append, Text.byteLength_nil, Nat.add_zero, hrest] at hwrite
    exact hwrite
  | [(.text s, pad)], offset, hproper, _ => by
    obtain ⟨hne, hbraces⟩ := hproper _ List.mem_cons_self
    have htext := tokensFrom_text strict offset (splitAtPair?_eq_none_iff.2 hbraces)
    rw [textToken_of_ne hne] at htext
    simpa [writeAll, TokenKind.write, tokensAt] using htext
  | (.text s, pad) :: (.directive d, pad') :: ks, offset, hproper, hchain => by
    rw [List.forall_mem_cons, List.forall_mem_cons] at hproper
    obtain ⟨⟨hne, hbraces⟩, hd, hproper⟩ := hproper
    rw [List.isChain_cons_cons] at hchain
    have hrest := tokensFrom_writeAll strict ks
      (offset + byteLength s.toList + byteLength (d.write pad')) hproper hchain.2.tail
    have hpair := splitAtPair?_concat_eq_none (splitAtPair?_eq_none_iff.2 hbraces) hchain.1
    have hwrite := tokensFrom_write strict offset hd pad' hpair (writeAll ks)
    rw [hrest, textToken_of_ne hne] at hwrite
    rw [List.append_assoc] at hwrite
    exact hwrite
  | (.text _, _) :: (.text _, _) :: _, _, _, hchain =>
    absurd (List.isChain_cons_cons.1 hchain).1 id

/-- Splitting a text into tokens undoes writing them, in strict mode and out of it. -/
theorem tokenize_writeAll (strict : Bool) (ks : List (TokenKind × Padding))
    (hproper : ∀ k ∈ ks, k.1.IsProper) (hchain : ks.IsChain fun a b => a.1.MayPrecede b.1) :
    tokenize strict (writeAll ks) = .ok (tokensAt 0 ks) :=
  tokensFrom_writeAll strict ks 0 hproper hchain

/-- The tokens of a letter, with blank characters of several kinds, braces in the text right behind
a directive and at the end, and an id with blank characters at its ends. -/
def letterTokens : List (TokenKind × Padding) :=
  [(.directive (.inherits "base letter"), { left := ['\u00A0'], gap := ['\t', '\u2003'] }),
   (.text "\x7d\x7d \x7bé\x7d ", {}),
   (.directive (.placeholder "名.@x-1"), { left := ['\n'], right := ['\u3000'] }),
   (.directive (.blockOpen " end "), {}),
   (.text "\x7d", {}),
   (.directive .blockClose, { right := [' ', '\u0085'] }),
   (.text "\x7b", {})]

theorem tokenize_letterTokens :
    (∀ k ∈ letterTokens, k.1.IsProper) ∧
      letterTokens.IsChain (fun a b => a.1.MayPrecede b.1) ∧
      tokenize true (writeAll letterTokens) = .ok (tokensAt 0 letterTokens) := by
  have hproper : ∀ k ∈ letterTokens, k.1.IsProper := by decide +kernel
  have hchain : letterTokens.IsChain fun a b => a.1.MayPrecede b.1 := by decide +kernel
  exact ⟨hproper, hchain, tokenize_writeAll true letterTokens hproper hchain⟩

end Reading

end StyledTemplate
