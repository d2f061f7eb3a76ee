import LooseC.Proofs.Dump.Lines

/-!
# Dumps with and without colours

Colours add escape codes to a dump and nothing else: what is left when the codes are erased is the
dump without colours. An escape code is the escape character, an opening bracket and everything up
to the next `m` (`behindCode?`), and `eraseCodes` reads a text from the front and leaves out every
code that begins where it stands. All that is asked of the way styled texts are written is that
codes go in front of a text and behind it (`Wrapping.Lawful`).

Erasing does not split along an append in general, since a code may begin in the first text and end
in the second. It does for the texts that a dump is put together from, a code among them as a whole:
`ErasesTo s t` says that `s` leaves `t` whatever follows. The laws of `ErasesTo` go through a dump
part by part, and `eraseCodes_dump` is the main statement.
-/

set_option autoImplicit false

namespace LooseC

/-! ### Erasing codes -/

/-- What stands behind the escape code that the text begins with, if it begins with one. -/
def behindCode? : List Char → Option (List Char)
  | '\x1b' :: '[' :: cs => (cs.dropWhile (· != 'm')).tail?
  | _ => none

/-- Behind a code less is left, so erasing comes to an end. -/
theorem length_of_behindCode? {cs later : List Char} (h : behindCode? cs = some later) :
    later.length < cs.length := by
  unfold behindCode? at h
  split at h
  · rename_i cs
    -- Everything up to the next `m` is dropped, and then the `m`.
    have hle := (List.dropWhile_sublist (l := cs) (· != 'm')).length_le
    cases hend : cs.dropWhile (· != 'm') with
    | nil =>
      rw [hend] at h
      cases h
    | cons c rest =>
      rw [hend] at h hle
      cases h
      simp only [List.length_cons] at hle ⊢
      omega
  · cases h

/-- The characters that are left when all escape codes are taken out. -/
def eraseCodeChars : List Char → List Char
  | [] => []
  | c :: cs =>
    match _h : behindCode? (c :: cs) with
    | some later => eraseCodeChars later
    | none => c :: eraseCodeChars cs
termination_by cs => cs.length
decreasing_by
  · exact length_of_behindCode? (by assumption)
  · exact Nat.lt_succ_self _

/-- The text without its escape codes. -/
def eraseCodes (s : String) : String := String.ofList (eraseCodeChars s.toList)

/-- An escape code that nothing closes is none. -/
example : eraseCodes "a\x1b[1mb\x1b[0m[m\x1b[1" = "ab[m\x1b[1" := by decide +kernel

/-- A code in front of a text is left out. -/
theorem eraseCodeChars_of_behindCode? {cs later : List Char} (h : behindCode? cs = some later) :
    eraseCodeChars cs = eraseCodeChars later := by
  cases cs with
  | nil => cases h
  | cons c cs =>
    rw [eraseCodeChars]
    split <;> simp_all

/-- Only the escape character begins a code. -/
theorem eraseCodeChars_cons {c : Char} (hc : c ≠ '\x1b') (cs : List Char) :
    eraseCodeChars (c :: cs) = c :: eraseCodeChars cs := by
  have hnone : behindCode? (c :: cs) = none := by
    unfold behindCode?
    split <;> simp_all
  rw [eraseCodeChars]
  split <;> simp_all

/-! ### Texts and what they leave -/

/-- Whatever follows the first text, erasing codes makes the second text of it. -/
def ErasesTo (s t : String) : Prop :=
  ∀ cs, eraseCodeChars (s.toList ++ cs) = t.toList ++ eraseCodeChars cs

namespace ErasesTo

variable {s s' t t' : String}

/-- At the end of a text nothing follows, so the text itself leaves what it leaves. -/
theorem eraseCodes_eq (h : ErasesTo s t) : eraseCodes s = t := by
  have hend := h []
  rw [List.append_nil, eraseCodeChars, List.append_nil] at hend
  rw [eraseCodes, hend, String.ofList_toList]

/-- Texts that are erased whatever follows are erased one after the other. -/
theorem append (h : ErasesTo s t) (h' : ErasesTo s' t') : ErasesTo (s ++ s') (t ++ t') := by
  intro cs
  rw [String.toList_append, List.append_assoc, h, h', String.toList_append, List.append_assoc]

/-- Items are erased one by one. -/
theorem join {α : Type} {f g : α → String} (items : List α)
    (h : ∀ a ∈ items, ErasesTo (f a) (g a)) :
    ErasesTo (String.join (items.map f)) (String.join (items.map g)) := by
  induction items with
  | nil =>
    intro cs
    rfl
  | cons a items ih =>
    rw [List.forall_mem_cons] at h
    rw [List.map_cons, List.map_cons, String.join_cons, String.join_cons]
    exact h.1.append (ih h.2)

/-- A text without the escape character stays as it is. -/
theorem plain (h : '\x1b' ∉ s.toList) : ErasesTo s s := by
  intro cs
  -- No character is the escape character, so each one stays, one after the other.
  generalize s.toList = chars at h ⊢
  induction chars with
  | nil => rfl
  | cons c chars ih =>
    rw [List.mem_cons, not_or] at h
    rw [List.cons_append, eraseCodeChars_cons (Ne.symm h.1), ih h.2, List.cons_append]

/-! ### Styles -/

/-- An escape code leaves nothing. -/
theorem code {parameters : String} (h : 'm' ∉ parameters.toList) :
    ErasesTo (styleCode parameters) "" := by
  intro cs
  have hcode : (styleCode parameters).toList ++ cs =
      '\x1b' :: '[' :: (parameters.toList ++ 'm' :: cs) := by
    simp [styleCode]
  have hparameters : ∀ c ∈ parameters.toList, (c != 'm') = true := by
    intro c hc
    rw [bne_iff_ne]
    rintro rfl
    exact h hc
  apply eraseCodeChars_of_behindCode?
  rw [hcode, behindCode?, List.dropWhile_append_of_pos hparameters]
  rfl

end ErasesTo

/-- The text consists of escape codes. -/
inductive IsCodes : String → Prop where
  | nil : IsCodes ""
  | cons {parameters later : String} (hparameters : 'm' ∉ parameters.toList)
      (hlater : IsCodes later) : IsCodes (styleCode parameters ++ later)

namespace IsCodes

/-- Escape codes leave nothing. -/
theorem erasesTo {s : String} (h : IsCodes s) : ErasesTo s "" := by
  induction h with
  | nil => exact .plain (by decide)
  | cons hparameters _ ih => exact (ErasesTo.code hparameters).append ih

/-- One escape code. -/
theorem singleton {parameters : String} (h : 'm' ∉ parameters.toList) :
    IsCodes (styleCode parameters) := by
  have hcodes := cons h nil
  rwa [String.append_empty] at hcodes

/-- The parameters of a colour are numbers. -/
theorem m_not_mem_colour (c : Colour) :
    'm' ∉ (s!"38;2;{c.red};{c.green};{c.blue}").toList := by
  have hnumber (n : Nat) : 'm' ∉ (toString n).toList := by
    intro h
    cases isDigit_of_mem_toString h
  show 'm' ∉ ("38;2;" ++ toString c.red ++ ";" ++ toString c.green ++ ";" ++
    toString c.blue).toList
  simp only [String.toList_append, List.mem_append, not_or, hnumber, not_false_eq_true, and_true]
  decide

/-- What turns a style on is codes. -/
theorem on (style : Style) : IsCodes style.on := by
  cases style with
  | colour c => exact singleton (m_not_mem_colour c)
  | colourBold c => exact cons (m_not_mem_colour c) (singleton (by decide))
  | bold => exact singleton (by decide)

/-- What turns it off is codes as well. -/
theorem off (style : Style) : IsCodes style.off := by
  cases style with
  | colour c => exact singleton (by decide)
  | colourBold c => exact singleton (by decide)
  | bold => exact singleton (by decide)

end IsCodes

/-- A text in a style is the text with escape codes in front of it and behind it, whichever text it
is. -/
def Wrapping.Lawful (wrap : Wrapping) : Prop :=
  ∀ style text, ∃ before behind, IsCodes before ∧ IsCodes behind ∧
    wrap style text = before ++ text ++ behind

/-- The way the program writes styles adds codes only. -/
theorem Wrapping.lawful_standard : Wrapping.standard.Lawful :=
  fun style _ => ⟨style.on, style.off, .on style, .off style, rfl⟩

/-- A style adds codes only. -/
theorem Wrapping.Lawful.erasesTo {wrap : Wrapping} (hwrap : wrap.Lawful) (style : Style)
    {s : String} (h : '\x1b' ∉ s.toList) : ErasesTo (wrap style s) s := by
  obtain ⟨before, behind, hbefore, hbehind, heq⟩ := hwrap style s
  have hboth := (hbefore.erasesTo.append (.plain h)).append hbehind.erasesTo
  rw [String.empty_append, String.append_empty] at hboth
  rw [heq]
  exact hboth

/-! ### Dumps -/

/-- The same layout with colours. -/
def DumpOptions.coloured (options : DumpOptions) : DumpOptions := { options with colour := true }

/-- The same layout without colours. -/
def DumpOptions.uncoloured (options : DumpOptions) : DumpOptions := { options with colour := false }

section
variable {ts : List Token} {wrap : Wrapping}

/-- The lexeme of a node is that of a token in the list, or empty. -/
theorem escape_not_mem_firstLexeme (h : ∀ t ∈ ts, '\x1b' ∉ t.lexeme.toList) (n : Node) :
    '\x1b' ∉ (n.firstLexeme ts).toList := by
  rw [Node.firstLexeme]
  cases hfirst : n.firstToken? ts with
  | none => simp
  | some t =>
    have hmem : t ∈ n.tokens ts := List.mem_of_head? hfirst
    unfold Node.tokens at hmem
    split at hmem
    · exact h t (List.mem_of_mem_take (List.mem_of_mem_drop hmem))
    · cases hmem

/-- What is shown of the place loses its codes. -/
theorem erasesTo_treeLineSuffix (hwrap : wrap.Lawful) (options : DumpOptions)
    (first : Option Token) :
    ErasesTo (treeLineSuffix wrap options.coloured first)
      (treeLineSuffix wrap options.uncoloured first) := by
  unfold treeLineSuffix DumpOptions.coloured DumpOptions.uncoloured
  dsimp only
  -- The place is shown or not, and it is made of digits and three marks.
  split
  · cases first with
    | none => exact .plain List.not_mem_nil
    | some t =>
      have hplace : '\x1b' ∉ (positionSuffix t.position).toList := by
        intro h
        cases isPlacePart_of_mem_positionSuffix h
      exact hwrap.erasesTo _ hplace
  · exact .plain (by decide)

/-- The front of a line loses its codes: those around the name and those around the lexeme. -/
theorem erasesTo_treeLineFront (hwrap : wrap.Lawful) (options : DumpOptions)
    (h : ∀ t ∈ ts, '\x1b' ∉ t.lexeme.toList) (v : Visit) :
    ErasesTo (treeLineFront wrap options.coloured ts v)
      (treeLineFront wrap options.uncoloured ts v) := by
  have hindent : ErasesTo (String.ofList (List.replicate (v.depth * options.indent) ' '))
      (String.ofList (List.replicate (v.depth * options.indent) ' ')) :=
    .plain (by simp)
  have hname : '\x1b' ∉ v.node.kind.name.toList := by
    intro h
    cases v.node.kind.mem_name h
  have hopen : ErasesTo "[" "[" := .plain (by decide)
  have hclose : ErasesTo "]" "]" := .plain (by decide)
  have hlexeme := escape_not_mem_firstLexeme h v.node
  exact (((hindent.append (hwrap.erasesTo _ hname)).append hopen).append
    (hwrap.erasesTo _ hlexeme)).append hclose

/-- The line of a node loses its codes, front and place. -/
theorem erasesTo_treeLine (hwrap : wrap.Lawful) (options : DumpOptions)
    (h : ∀ t ∈ ts, '\x1b' ∉ t.lexeme.toList) (v : Visit) :
    ErasesTo (treeLine wrap options.coloured ts v) (treeLine wrap options.uncoloured ts v) :=
  (erasesTo_treeLineFront hwrap options h v).append (erasesTo_treeLineSuffix hwrap options _)

/-- The line of a token loses its codes, and the text form of the token is left. -/
theorem erasesTo_tokenLine (hwrap : wrap.Lawful) (options : DumpOptions) {t : Token}
    (h : '\x1b' ∉ t.lexeme.toList) :
    ErasesTo (tokenLine wrap options.coloured t) (tokenLine wrap options.uncoloured t) := by
  have hname : '\x1b' ∉ t.kind.name.toList := by
    intro h
    cases t.kind.mem_name h
  have hplace : '\x1b' ∉ (toString t.position).toList := by
    intro h
    cases isPlacePart_of_mem_position h
  have hcolon : ErasesTo ":" ":" := .plain (by decide)
  exact ((((hwrap.erasesTo _ hname).append hcolon).append (hwrap.erasesTo _ h)).append
    hcolon).append (hwrap.erasesTo _ hplace)

/-- If no lexeme holds the escape character, a dump with colours is the dump without them and escape
codes added to it, in whichever way styles are written. The tree may be any tree: its spans need not
fit the list. -/
theorem eraseCodes_dump (hwrap : wrap.Lawful) (tree : Node) (options : DumpOptions)
    (h : ∀ t ∈ ts, '\x1b' ∉ t.lexeme.toList) :
    eraseCodes (dumpTree wrap options.coloured tree ts) =
        dumpTree wrap options.uncoloured tree ts ∧
      eraseCodes (dumpTokens wrap options.coloured ts) =
        dumpTokens wrap options.uncoloured ts := by
  have hnewline : ErasesTo "\n" "\n" := .plain (by decide)
  -- Both dumps are lines put together, and each line loses its codes.
  constructor
  · apply ErasesTo.eraseCodes_eq
    apply ErasesTo.join
    intro v _
    exact (erasesTo_treeLine hwrap options h v).append hnewline
  · apply ErasesTo.eraseCodes_eq
    apply ErasesTo.join
    intro t ht
    exact (erasesTo_tokenLine hwrap options (h t ht)).append hnewline

end

/-- A literal that looks like the rest of an escape code, and a node whose span does not fit. -/
theorem eraseCodes_dump_misfit :
    eraseCodes (dumpTree .standard (DumpOptions.coloured { positions := true })
      ⟨.unit, ⟨0, 1⟩, [.leaf .expression ⟨1, 5⟩]⟩ [⟨.stringLiteral, "\"[1m\"", ⟨0, 4⟩⟩]) =
        "UNIT[\"[1m\"] @1:5\n  EXPRESSION[]\n" ∧
    eraseCodes (dumpTokens .standard (DumpOptions.coloured { positions := true })
      [⟨.stringLiteral, "\"[1m\"", ⟨0, 4⟩⟩]) = "LITERAL_STRING:\"[1m\":0:4\n" := by
  have hescape : ∀ t ∈ [Token.mk .stringLiteral "\"[1m\"" ⟨0, 4⟩], '\x1b' ∉ t.lexeme.toList := by
    decide
  obtain ⟨htree, htokens⟩ := eraseCodes_dump Wrapping.lawful_standard
    ⟨.unit, ⟨0, 1⟩, [.leaf .expression ⟨1, 5⟩]⟩ { positions := true } hescape
  rw [htree, htokens]
  exact ⟨by decide +kernel, by decide +kernel⟩

end LooseC
