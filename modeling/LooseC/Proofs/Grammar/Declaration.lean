import LooseC.Parse.Declaration
import LooseC.Proofs.Grammar.Statement

/-!
# Declarations read what the grammar derives

One lemma for each production of `Parse/Declaration.lean`, up to `reads_declaration_iff`. Two of
them carry an induction: the parameters of a list go through the law for repetitions, and the
declarators between commas through an induction on the number of tokens left.
-/

set_option autoImplicit false

namespace LooseC.Parse

variable {ts : List Token} {i j : Nat} {node : Node}

/-! ### Types -/

/-- The test of the run of type words in terms of the list. -/
theorem nextIsTypeWord_iff : nextIsTypeWord ⟨ts, i⟩ = true ↔ TypeWordAt ts i := by
  unfold nextIsTypeWord Cursor.peek? TypeWordAt kindAt?
  cases ts[i]? <;> simp

/-- A type takes a run of type words, `struct` and a name, or a name. -/
theorem reads_typeTokens_iff :
    typeTokens.Reads ts i () j ↔ Derives ts .type i j [.leaf .type ⟨i, j⟩] := by
  have hrun : (∃ as, (many nextIsTypeWord consume).Reads ts i as j) ↔ _ :=
    reads_many_consume_iff (fun _ => nextIsTypeWord_iff) (fun _ h => h.lt_length)
  simp only [typeTokens, reads_peek_bind_iff, reads_ite_iff, reads_bind_iff (p := many _ _),
    reads_consume_bind_iff, reads_take_bind_iff, reads_pure_iff, true_and]
  constructor
  · rintro ⟨t, ht, h⟩
    have hi : kindAt? ts i = some t.kind := kindAt?_eq_some_iff.mpr ⟨t, ht, rfl⟩
    split at h
    · -- The first word is part of the run, which begins where the type does.
      rename_i hword
      obtain ⟨as, k, hmany, rfl⟩ := h
      exact .typeWords ⟨t.kind, hi, hword⟩ (hrun.mp ⟨as, hmany⟩)
    · split at h
      · rename_i hstruct
        obtain ⟨_, -, hname, rfl⟩ := h
        exact .typeStruct (hstruct ▸ hi) hname
      · obtain ⟨hname, rfl⟩ := h
        exact .typeName hname
  · intro h
    cases h with
    | typeWords hi hfirst =>
      obtain ⟨kind, hkind, hword⟩ := hi
      obtain ⟨t, ht, rfl⟩ := kindAt?_eq_some_iff.mp hkind
      obtain ⟨as, hmany⟩ := hrun.mpr hfirst
      refine ⟨t, ht, ?_⟩
      rw [if_pos hword]
      exact ⟨as, j, hmany, rfl⟩
    | typeStruct hi hname =>
      obtain ⟨t, ht, hkind⟩ := kindAt?_eq_some_iff.mp hi
      refine ⟨t, ht, ?_⟩
      rw [hkind, if_neg (by decide), if_pos rfl]
      exact ⟨t, ht, hname, rfl⟩
    | typeName hi =>
      obtain ⟨t, ht, hkind⟩ := kindAt?_eq_some_iff.mp hi
      refine ⟨t, ht, ?_⟩
      rw [hkind, if_neg (by decide), if_neg (by decide)]
      exact ⟨hi, rfl⟩

/-- The node of a type spans its tokens and has no children. -/
theorem derives_type_node (h : Derives ts .type i j [node]) : node = .leaf .type ⟨i, j⟩ := by
  cases h <;> rfl

/-- A type reads what the grammar derives as one. -/
theorem reads_type_iff : type.Reads ts i node j ↔ Derives ts .type i j [node] := by
  simp only [type, reads_position_bind_iff, reads_bind_iff (p := typeTokens),
    reads_spanFrom_bind_iff, reads_pure_iff]
  constructor
  · rintro ⟨_, _, htokens, -, rfl, rfl⟩
    exact reads_typeTokens_iff.mp htokens
  · intro h
    have hle := h.le
    obtain rfl := derives_type_node h
    exact ⟨(), j, reads_typeTokens_iff.mpr h, hle, rfl, rfl⟩

/-- A type begins with a type word, with `struct`, or with a name. -/
theorem derives_type_first {nodes : List Node} (h : Derives ts .type i j nodes) :
    ∃ kind, kindAt? ts i = some kind ∧
      (kind.isType = true ∨ kind = .kwStruct ∨ kind = .identifier) := by
  cases h with
  | typeWords hi _ =>
    obtain ⟨kind, hkind, hword⟩ := hi
    exact ⟨kind, hkind, .inl hword⟩
  | typeStruct hi _ => exact ⟨_, hi, .inr (.inl rfl)⟩
  | typeName hi => exact ⟨_, hi, .inr (.inr rfl)⟩

/-! ### Parameters -/

/-- A parameter, with a name and without one. -/
theorem reads_parameter_iff : parameter.Reads ts i node j ↔ Derives ts .parameter i j [node] := by
  simp only [parameter, reads_position_bind_iff, reads_bind_iff (p := type), reads_type_iff,
    reads_optional_bind_iff, reads_spanFrom_bind_iff, reads_pure_iff]
  constructor
  · rintro ⟨itsType, k, htype, h⟩
    split at h
    · rename_i hname
      obtain ⟨-, rfl, rfl⟩ := h
      exact .parameterNamed htype hname
    · rename_i hname
      obtain ⟨-, rfl, rfl⟩ := h
      exact .parameterUnnamed htype hname
  · intro h
    -- Whether a name stands behind the type decides between the two rules.
    cases h with
    | @parameterNamed _ k itsType htype hname =>
      have hle := htype.le
      refine ⟨itsType, k, htype, ?_⟩
      rw [if_pos hname]
      exact ⟨by omega, rfl, rfl⟩
    | @parameterUnnamed _ _ itsType htype hname =>
      refine ⟨itsType, j, htype, ?_⟩
      rw [if_neg hname]
      exact ⟨htype.le, rfl, rfl⟩

/-- A parameter and the comma behind it, which is taken where it stands. -/
theorem reads_parameterAndComma_iff : parameterAndComma.Reads ts i node j ↔
    ∃ k, Derives ts .parameter i k [node] ∧
      if kindAt? ts k = some .comma then j = k + 1 else j = k := by
  simp only [parameterAndComma, reads_bind_iff (p := parameter), reads_parameter_iff,
    reads_optional_bind_iff, reads_pure_iff]
  constructor
  · rintro ⟨n, k, hn, h⟩
    -- The comma is taken if it is there and not missed otherwise.
    split at h
    · rename_i hcomma
      obtain ⟨rfl, rfl⟩ := h
      exact ⟨_, hn, by rw [if_pos hcomma]⟩
    · rename_i hcomma
      obtain ⟨rfl, rfl⟩ := h
      exact ⟨_, hn, by rw [if_neg hcomma]⟩
  · rintro ⟨k, hn, h⟩
    refine ⟨node, k, hn, ?_⟩
    split <;> simp_all

/-- A parameter does not begin with a closing parenthesis. -/
theorem derives_parameter_first {nodes : List Node} (h : Derives ts .parameter i j nodes) :
    kindAt? ts i ≠ some .rparen := by
  intro hparen
  -- Both rules begin with the type.
  have hfirst {l : Nat} {types : List Node} (htype : Derives ts .type i l types) : False := by
    obtain ⟨kind, hkind, hwhich⟩ := derives_type_first htype
    rw [hparen, Option.some.injEq] at hkind
    subst hkind
    simp [TokenKind.isType] at hwhich
  cases h with
  | parameterNamed htype _ => exact hfirst htype
  | parameterUnnamed htype _ => exact hfirst htype

/-- The test of the run of parameters in terms of the list. -/
theorem inParameters_iff : inParameters ⟨ts, i⟩ = true ↔ kindAt? ts i ≠ some .rparen := by
  rw [inParameters, Bool.not_eq_true', ← Bool.not_eq_true, nextIs_iff]

/-- The parameters of a list, up to its closing parenthesis. -/
theorem reads_many_parameters_iff {nodes : List Node} :
    (many inParameters parameterAndComma).Reads ts i nodes j ∧ kindAt? ts j = some .rparen ↔
      Derives ts .parameters i j nodes := by
  refine reads_many_iff_of_step (Q := fun j => kindAt? ts j = some .rparen)
    (R := fun k nodes j => Derives ts .parameters k j nodes) (Nat.le_refl i)
    (fun i nodes j _ => ?_) nodes
  constructor
  · intro h
    cases h with
    | parametersNil hi =>
      refine .inl ⟨?_, rfl, rfl, hi⟩
      rw [← Bool.not_eq_true, inParameters_iff, Decidable.not_not]
      exact hi
    -- With or without a comma, one round takes the parameter and goes on behind it.
    | @parametersComma _ k _ n later hn hk hlater =>
      have hle := hn.le
      have hlt := lt_length_of_kindAt? hk
      refine .inr ⟨inParameters_iff.mpr (derives_parameter_first hn), n, k + 1, later, ?_, ?_,
        hlater, rfl⟩
      · exact reads_parameterAndComma_iff.mpr ⟨k, hn, by rw [if_pos hk]⟩
      · omega
    | @parametersNext _ k _ n later hn hk hlater =>
      have hik := hn.lt rfl
      have hlen := hn.le_length
      refine .inr ⟨inParameters_iff.mpr (derives_parameter_first hn), n, k, later, ?_, ?_,
        hlater, rfl⟩
      · exact reads_parameterAndComma_iff.mpr ⟨k, hn, by rw [if_neg hk]⟩
      · omega
  · rintro (⟨-, rfl, rfl, hi⟩ | ⟨-, n, k, later, hitem, -, hlater, rfl⟩)
    · exact .parametersNil hi
    · obtain ⟨l, hn, hk⟩ := reads_parameterAndComma_iff.mp hitem
      split at hk
      · rename_i hcomma
        subst hk
        exact .parametersComma hn hcomma hlater
      · rename_i hcomma
        subst hk
        exact .parametersNext hn hcomma hlater

/-- A parameter list: its parameters between two parentheses. -/
theorem reads_parameterList_iff :
    parameterList.Reads ts i node j ↔ Derives ts .parameterList i j [node] := by
  simp only [parameterList, reads_position_bind_iff, reads_expect_bind_iff,
    reads_bind_iff (p := many _ _), reads_spanFrom_bind_iff, reads_pure_iff]
  constructor
  · rintro ⟨hi, nodes, k, hmany, hk, -, rfl, rfl⟩
    exact .parameterList hi (reads_many_parameters_iff.mp ⟨hmany, hk⟩) hk
  · intro h
    cases h with
    | @parameterList _ k nodes hi hnodes hk =>
      have hle := hnodes.le
      obtain ⟨hmany, -⟩ := reads_many_parameters_iff.mpr hnodes
      exact ⟨hi, nodes, k, hmany, hk, by omega, rfl, rfl⟩

/-! ### Declarators -/

/-- The search that skips an initializer stops where the initializer ends. -/
theorem findInitializerEnd_eq_some_iff :
    (Cursor.mk ts i).findAtSameLevel endsInitializer = some j ↔ EndsInitializer ts i j := by
  rw [findAtSameLevel_eq_some_iff]
  refine FirstFrom.congr_iff fun m _ => and_congr_right fun _ => ?_
  simp only [kindAt?_eq_some_iff, ← exists_or, ← and_or_left, endsInitializer, Bool.or_eq_true,
    beq_iff_eq]

/-- An initializer from behind the equals sign up to where it ends. -/
theorem reads_initializer_iff :
    initializer.Reads ts i node j ↔ Derives ts .initializer i j [node] := by
  simp only [initializer, reads_expect_bind_iff, reads_position_bind_iff, reads_find_bind_iff,
    findInitializerEnd_eq_some_iff, reads_seek_bind_iff, reads_spanFrom_bind_iff, reads_pure_iff]
  constructor
  · rintro ⟨hi, k, hend, -, -, rfl, rfl⟩
    exact .initializer hi hend
  · intro h
    cases h with
    | initializer hi hend =>
      exact ⟨hi, j, hend, Nat.le_of_lt hend.lt_length, hend.le, rfl, rfl⟩

/-- What follows the parameters of a function: a semicolon, or a block. -/
theorem reads_functionEnd_iff {nodes : List Node} :
    functionEnd.Reads ts i nodes j ↔
      (kindAt? ts i = some .semi ∧ nodes = [] ∧ j = i + 1) ∨
        ∃ body, Derives ts .block i j [body] ∧ nodes = [body] := by
  have hblock (n : Node) (l : Nat) : (block statement).Reads ts i n l ↔ _ :=
    reads_block_iff statementsAfter_statement
  simp only [functionEnd, reads_optional_bind_iff, reads_nextIs_iff, if_true, Bool.false_eq_true,
    if_false, reads_bind_iff (p := block _), hblock, reads_pure_iff, not_reads_fail]
  constructor
  · intro h
    split at h
    · rename_i hsemi
      exact .inl ⟨hsemi, h⟩
    · split at h
      · obtain ⟨body, k, hbody, rfl, rfl⟩ := h
        exact .inr ⟨body, hbody, rfl⟩
      · exact absurd h id
  · rintro (⟨hsemi, hnodes⟩ | ⟨body, hbody, rfl⟩)
    · rw [if_pos hsemi]
      exact hnodes
    · -- A block begins with a brace, so no semicolon follows.
      have hbrace : kindAt? ts i = some .lbrace := by
        cases hbody
        assumption
      rw [hbrace, if_neg (by decide), if_pos rfl]
      exact ⟨body, j, hbody, rfl, rfl⟩

/-- What follows the name in a declarator: the parameters and the end of a function, an
initializer, or nothing. -/
theorem reads_declaratorRest_iff {nodes : List Node} {ended : Bool} :
    declaratorRest.Reads ts i (nodes, ended) j ↔
      (∃ parameters k body, Derives ts .parameterList i k [parameters] ∧
        functionEnd.Reads ts k body j ∧ nodes = parameters :: body ∧ ended = true) ∨
      (∃ value, Derives ts .initializer i j [value] ∧ nodes = [value] ∧ ended = false) ∨
      (kindAt? ts i ≠ some .lparen ∧ kindAt? ts i ≠ some .assign ∧ nodes = [] ∧ ended = false ∧
        j = i) := by
  simp only [declaratorRest, reads_nextIs_iff, reads_bind_iff (p := parameterList),
    reads_parameterList_iff, reads_bind_iff (p := functionEnd), reads_bind_iff (p := initializer),
    reads_initializer_iff, reads_pure_iff, Prod.mk.injEq]
  constructor
  · intro h
    -- The next token decides: a parenthesis, an equals sign, or anything else.
    split at h
    · obtain ⟨parameters, k, hparameters, body, _, hbody, ⟨rfl, rfl⟩, rfl⟩ := h
      exact .inl ⟨parameters, k, body, hparameters, hbody, rfl, rfl⟩
    · rename_i hparen
      split at h
      · obtain ⟨value, _, hvalue, ⟨rfl, rfl⟩, rfl⟩ := h
        exact .inr (.inl ⟨value, hvalue, rfl, rfl⟩)
      · rename_i hassign
        obtain ⟨⟨rfl, rfl⟩, rfl⟩ := h
        exact .inr (.inr ⟨hparen, hassign, rfl, rfl, rfl⟩)
  · rintro (⟨parameters, k, body, hparameters, hbody, rfl, rfl⟩ | ⟨value, hvalue, rfl, rfl⟩ |
      ⟨hparen, hassign, rfl, rfl, rfl⟩)
    · -- What each phrase begins with decides the choice.
      have hparen : kindAt? ts i = some .lparen := by
        cases hparameters
        assumption
      rw [if_pos hparen]
      exact ⟨parameters, k, hparameters, body, j, hbody, ⟨rfl, rfl⟩, rfl⟩
    · have hassign : kindAt? ts i = some .assign := by
        cases hvalue
        assumption
      rw [hassign, if_neg (by decide), if_pos rfl]
      exact ⟨value, j, hvalue, ⟨rfl, rfl⟩, rfl⟩
    · rw [if_neg hparen, if_neg hassign]
      exact ⟨⟨rfl, rfl⟩, rfl⟩

/-- A declarator of each of the four forms, and whether it ended the declaration. -/
theorem reads_declarator_iff {ended : Bool} :
    declarator.Reads ts i (node, ended) j ↔ Derives ts (.declarator ended) i j [node] := by
  -- The name and the span are read off; what is left is the choice behind the name.
  have hread : declarator.Reads ts i (node, ended) j ↔ kindAt? ts i = some .identifier ∧
      ∃ nodes, declaratorRest.Reads ts (i + 1) (nodes, ended) j ∧ i ≤ j ∧
        node = ⟨.declarator, ⟨i, j⟩, nodes⟩ := by
    simp only [declarator, reads_position_bind_iff, reads_take_bind_iff,
      reads_bind_iff (p := declaratorRest), reads_spanFrom_bind_iff, reads_pure_iff, Prod.mk.injEq]
    grind
  rw [hread]
  constructor
  · rintro ⟨hi, nodes, hrest, -, rfl⟩
    -- One rule of the grammar for each way to go on behind the name.
    rcases reads_declaratorRest_iff.mp hrest with
      ⟨parameters, k, body, hparameters, hbody, rfl, rfl⟩ | ⟨value, hvalue, rfl, rfl⟩ |
        ⟨hparen, hassign, rfl, rfl, rfl⟩
    · rcases reads_functionEnd_iff.mp hbody with ⟨hsemi, rfl, rfl⟩ | ⟨body, hblock, rfl⟩
      · exact .prototype hi hparameters hsemi
      · exact .function hi hparameters hblock
    · exact .initialized hi hvalue
    · exact .plainDeclarator hi hparen hassign
  · intro h
    have hle := h.le
    cases h with
    | @prototype _ k parameters hi hparameters hsemi =>
      have hend := reads_functionEnd_iff.mpr (.inl ⟨hsemi, rfl, rfl⟩)
      exact ⟨hi, _, reads_declaratorRest_iff.mpr (.inl ⟨_, k, [], hparameters, hend, rfl, rfl⟩),
        hle, rfl⟩
    | @function _ k _ parameters body hi hparameters hblock =>
      have hend := reads_functionEnd_iff.mpr (.inr ⟨body, hblock, rfl⟩)
      exact ⟨hi, _, reads_declaratorRest_iff.mpr (.inl ⟨_, k, _, hparameters, hend, rfl, rfl⟩),
        hle, rfl⟩
    | initialized hi hvalue =>
      exact ⟨hi, _, reads_declaratorRest_iff.mpr (.inr (.inl ⟨_, hvalue, rfl, rfl⟩)), hle, rfl⟩
    | plainDeclarator hi hparen hassign =>
      exact ⟨hi, _, reads_declaratorRest_iff.mpr (.inr (.inr ⟨hparen, hassign, rfl, rfl, rfl⟩)),
        hle, rfl⟩

/-- One round of the production for declarators: the first one, and those after a comma if it has
not ended the declaration. -/
theorem reads_declaratorsBody_iff {p : Parse (List Node × Bool)} {nodes : List Node}
    {ended : Bool} :
    (declaratorsBody p).Reads ts i (nodes, ended) j ↔
      (∃ n, Derives ts (.declarator true) i j [n] ∧ nodes = [n] ∧ ended = true) ∨
      ∃ n k, Derives ts (.declarator false) i k [n] ∧
        if kindAt? ts k = some .comma then
          ∃ later, p.Reads ts (k + 1) (later, ended) j ∧ nodes = n :: later
        else nodes = [n] ∧ ended = false ∧ j = k := by
  -- The results behind the comma come as a pair, and the rule wants its two parts.
  have hlast (n : Node) (k : Nat) :
      (if kindAt? ts k = some .comma then
        ∃ r l, p.Reads ts (k + 1) r l ∧ ((nodes = n :: r.1 ∧ ended = r.2) ∧ j = l)
      else ((nodes = [n] ∧ ended = false) ∧ j = k)) ↔
      if kindAt? ts k = some .comma then
        ∃ later, p.Reads ts (k + 1) (later, ended) j ∧ nodes = n :: later
      else nodes = [n] ∧ ended = false ∧ j = k := by
    split
    · constructor
      · rintro ⟨⟨later, flag⟩, _, hlater, ⟨rfl, rfl⟩, rfl⟩
        exact ⟨later, hlater, rfl⟩
      · rintro ⟨later, hlater, rfl⟩
        exact ⟨(later, ended), j, hlater, ⟨rfl, rfl⟩, rfl⟩
    · rw [and_assoc]
  have hread : (declaratorsBody p).Reads ts i (nodes, ended) j ↔
      ∃ n flag k, Derives ts (.declarator flag) i k [n] ∧
        if flag = true then (nodes = [n] ∧ ended = true) ∧ j = k else
          if kindAt? ts k = some .comma then
            ∃ later, p.Reads ts (k + 1) (later, ended) j ∧ nodes = n :: later
          else nodes = [n] ∧ ended = false ∧ j = k := by
    simp only [declaratorsBody, reads_bind_iff (p := declarator), reads_ite_iff,
      reads_optional_bind_iff, if_true, Bool.false_eq_true, if_false, reads_bind_iff (p := p),
      reads_pure_iff, Prod.mk.injEq, Prod.exists, reads_declarator_iff, ← hlast]
  rw [hread]
  constructor
  · rintro ⟨n, flag, k, hn, h⟩
    cases flag with
    | true =>
      obtain ⟨⟨rfl, rfl⟩, rfl⟩ := h
      exact .inl ⟨n, hn, rfl, rfl⟩
    | false => exact .inr ⟨n, k, hn, h⟩
  · rintro (⟨n, hn, rfl, rfl⟩ | ⟨n, k, hn, h⟩)
    · exact ⟨n, true, j, hn, ⟨rfl, rfl⟩, rfl⟩
    · exact ⟨n, false, k, hn, h⟩

/-- Declarators between commas, by induction on the number of tokens left. -/
theorem reads_declarators_iff {nodes : List Node} {ended : Bool} :
    declarators.Reads ts i (nodes, ended) j ↔ Derives ts (.declarators ended) i j nodes := by
  induction hn : ts.length - i using Nat.strongRecOn generalizing i nodes with
  | ind n ih =>
    -- Behind a comma fewer tokens are left, so the round may use the production there.
    have hlater {k : Nat} {later : List Node} (hk : i < k) (hlen : k < ts.length) :
        (watched ⟨ts, i⟩ (fix declaratorsBody)).Reads ts (k + 1) (later, ended) j ↔
          Derives ts (.declarators ended) (k + 1) j later := by
      rw [reads_watched_iff]
      have hlt : ts.length - (k + 1) < ts.length - i := by omega
      exact ⟨fun h => (ih _ (hn ▸ hlt) rfl).mp h.2, fun h => ⟨hlt, (ih _ (hn ▸ hlt) rfl).mpr h⟩⟩
    rw [declarators, reads_fix_iff, reads_declaratorsBody_iff]
    constructor
    · rintro (⟨m, hm, rfl, rfl⟩ | ⟨m, k, hm, h⟩)
      · exact .declaratorsEnded hm
      · have hlt := hm.lt rfl
        split at h
        · rename_i hcomma
          obtain ⟨later, hread, rfl⟩ := h
          have hrest := (hlater hlt (lt_length_of_kindAt? hcomma)).mp hread
          exact .declaratorsComma hm hcomma hrest
        · rename_i hcomma
          obtain ⟨rfl, rfl, rfl⟩ := h
          exact .declaratorsLast hm hcomma
    · intro h
      cases h with
      | declaratorsEnded hm => exact .inl ⟨_, hm, rfl, rfl⟩
      | declaratorsLast hm hcomma =>
        refine .inr ⟨_, j, hm, ?_⟩
        rw [if_neg hcomma]
        exact ⟨rfl, rfl, rfl⟩
      | @declaratorsComma _ _ k _ m later hm hcomma hrest =>
        have hlt := hm.lt rfl
        refine .inr ⟨m, k, hm, ?_⟩
        rw [if_pos hcomma]
        exact ⟨later,
          (hlater hlt (lt_length_of_kindAt? hcomma)).mpr hrest, rfl⟩

/-- A list of declarators is one node around them. -/
theorem reads_declaratorList_iff {ended : Bool} :
    declaratorList.Reads ts i (node, ended) j ↔ Derives ts (.declaratorList ended) i j [node] := by
  simp only [declaratorList, reads_position_bind_iff, reads_bind_iff (p := declarators),
    reads_spanFrom_bind_iff, reads_pure_iff, Prod.exists, reads_declarators_iff, Prod.mk.injEq]
  constructor
  · rintro ⟨nodes, _, k, hnodes, -, ⟨rfl, rfl⟩, rfl⟩
    exact .declaratorList hnodes
  · intro h
    cases h with
    | declaratorList hnodes =>
      exact ⟨_, ended, j, hnodes, hnodes.le, ⟨rfl, rfl⟩, rfl⟩

/-! ### Declarations -/

/-- A declaration that its declarators have ended needs nothing more; any other needs a
semicolon. -/
theorem reads_declarationEnd_iff {ended : Bool} {u : Unit} :
    (declarationEnd ended).Reads ts i u j ↔
      (ended = true ∧ j = i) ∨ (ended = false ∧ kindAt? ts i = some .semi ∧ j = i + 1) := by
  cases ended with
  | true => simp [declarationEnd]
  | false =>
    simp only [declarationEnd, Bool.false_eq_true, if_false, reads_optional_bind_iff, if_true,
      reads_ask_bind_iff, reads_pure_iff, not_reads_fail]
    by_cases hsemi : kindAt? ts i = some .semi <;> simp [hsemi]

/-- The production for declarations reads the declarations of the grammar. -/
theorem reads_declaration_iff :
    declaration.Reads ts i node j ↔ Derives ts .declaration i j [node] := by
  simp only [declaration, reads_position_bind_iff, reads_bind_iff (p := type), reads_type_iff,
    reads_bind_iff (p := declaratorList), Prod.exists, reads_declaratorList_iff,
    reads_bind_iff (p := declarationEnd _), reads_declarationEnd_iff, reads_spanFrom_bind_iff,
    reads_note_bind_iff, reads_pure_iff]
  constructor
  · rintro ⟨itsType, k, htype, list, ended, l, hlist, _, _, hend, -, rfl, rfl⟩
    -- The declarators have ended the declaration or a semicolon does.
    rcases hend with ⟨rfl, rfl⟩ | ⟨rfl, hsemi, rfl⟩
    · exact .declarationEnded htype hlist
    · exact .declarationSemi htype hlist hsemi
  · intro h
    have hle := h.le
    cases h with
    | declarationEnded htype hlist =>
      exact ⟨_, _, htype, _, true, j, hlist, (), j, .inl ⟨rfl, rfl⟩, hle, rfl, rfl⟩
    | @declarationSemi _ _ l _ _ htype hlist hsemi =>
      exact ⟨_, _, htype, _, false, l, hlist, (), l + 1, .inr ⟨rfl, hsemi, rfl⟩, hle, rfl, rfl⟩

end LooseC.Parse
