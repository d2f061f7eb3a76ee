import LooseC.Proofs.Grammar.Shift

/-!
# Token lists one after the other

A phrase is decided by its own tokens and at most one more, the one it stops in front of
(`Symbol.reach`), so it stays the same phrase whatever follows that token
(`Derives.congr_prefix`). The top-level constructs of a list therefore stay what they are when
a second list follows, and the second list is read as it would be alone. `parse_append` says
so for the whole parse, errors and their places included.

The one construct that needs care is a directive that ends the first list: it takes whatever
follows on its row.
-/

set_option autoImplicit false

namespace LooseC

variable {ts us : List Token} {i j : Nat}

/-! ### What a phrase looks at -/

/-- The two lists agree below an index. -/
def SameBelow (ts us : List Token) (n : Nat) : Prop := ∀ m, m < n → us[m]? = ts[m]?

namespace SameBelow

variable {n : Nat} {kind : TokenKind}

/-- Lists that agree below an index agree below any smaller one. -/
theorem mono {m : Nat} (h : SameBelow ts us n) (hle : m ≤ n) : SameBelow ts us m :=
  fun k hk => h k (Nat.lt_of_lt_of_le hk hle)

/-- The kinds below the index are the same. -/
theorem kindAt? (h : SameBelow ts us n) (hi : i < n) : kindAt? us i = kindAt? ts i := by
  rw [LooseC.kindAt?, LooseC.kindAt?, h i hi]

/-- A kind that stands below the index stands there in the other list. -/
theorem kind_eq {found : Option TokenKind} (h : SameBelow ts us n)
    (hfound : LooseC.kindAt? ts i = found) (hi : i < n) : LooseC.kindAt? us i = found := by
  rw [h.kindAt? hi, hfound]

/-- And one that does not stand there does not in the other list either. -/
theorem kind_ne {found : Option TokenKind} (h : SameBelow ts us n)
    (hfound : LooseC.kindAt? ts i ≠ found) (hi : i < n) : LooseC.kindAt? us i ≠ found := by
  rwa [h.kindAt? hi]

/-- The rows below the index are the same. -/
theorem rowAt? (h : SameBelow ts us n) (hi : i < n) : rowAt? us i = rowAt? ts i := by
  rw [LooseC.rowAt?, LooseC.rowAt?, h i hi]

/-- Below the index both lists have a token or neither has. -/
theorem lt_length (h : SameBelow ts us n) (hi : i < n) : i < us.length ↔ i < ts.length := by
  rw [← Nat.not_le, ← Nat.not_le, ← kindAt?_eq_none_iff, ← kindAt?_eq_none_iff, h.kindAt? hi]

/-- Below the index type words stand at the same places. -/
theorem typeWordAt (h : SameBelow ts us n) (hi : i < n) : TypeWordAt us i ↔ TypeWordAt ts i := by
  rw [TypeWordAt, TypeWordAt, h.kindAt? hi]

/-- Counts of ranges below the index are the same. -/
theorem countKind (h : SameBelow ts us n) (hj : j ≤ n) :
    countKind us kind i j = countKind ts kind i j := by
  have hshift : LooseC.countKind us kind (0 + i) (0 + j) = LooseC.countKind ts kind i j :=
    countKind_shift fun m _ hm => by rw [Nat.zero_add, h.kindAt? (by omega)]
  rwa [Nat.zero_add, Nat.zero_add] at hshift

/-- A bracket that is closed below the index is closed by the same one. -/
theorem closes {opening closing : TokenKind} (h : SameBelow ts us (j + 1))
    (hcloses : Closes ts opening closing i j) : Closes us opening closing i j := by
  have hle := hcloses.first.le
  refine ⟨by rw [h.kindAt? (by omega), hcloses.opens], hcloses.first.congr fun m _ hm => ?_⟩
  rw [h.lt_length (by omega), h.countKind (by omega), h.countKind (by omega)]

/-- An initializer that ends below the index ends at the same place. -/
theorem endsInitializer (h : SameBelow ts us (j + 1)) (hends : EndsInitializer ts i j) :
    EndsInitializer us i j := by
  refine hends.congr fun m _ hm => ?_
  rw [h.kindAt? (by omega)]
  exact and_congr_left fun _ => (levelAt_congr fun kind => h.countKind (by omega)).symm

end SameBelow

/-- The index below which the tokens decide a phrase that ends at `j`. A phrase that ends with
a token of its own looks no further than that token, any other looks at the one behind. -/
def Symbol.reach (j : Nat) : Symbol → Nat
  | .declaration | .declaratorList true | .declarators true | .declarator true
  | .parameterList | .block | .guard => j
  | _ => j + 1

/-- A phrase looks at all of its own tokens. -/
theorem Symbol.le_reach (symbol : Symbol) : j ≤ symbol.reach j := by
  unfold reach
  split <;> omega

/-- A phrase is a phrase in every list that has the same tokens as far as it looks. The run of
all top-level constructs looks for the end of its list, so it is left out. -/
theorem Derives.congr_prefix {symbol : Symbol} {nodes : List Node}
    (h : Derives ts symbol i j nodes) (hitems : symbol ≠ .items)
    (hsame : SameBelow ts us (symbol.reach j)) : Derives us symbol i j nodes := by
  -- In every case the parts of the phrase end inside it, so they look no further than it does.
  induction h with try simp only [Symbol.reach] at *
  | itemsNil => exact absurd rfl hitems
  | itemsCons => exact absurd rfl hitems
  | directive hi hkind hrow =>
    have hle := hrow.le
    refine .directive (hsame.kind_eq hi (by omega)) hkind (hrow.congr fun m _ hm => ?_)
    rw [hsame.rowAt? (by omega), hsame.rowAt? (by omega)]
  | itemDeclaration hdecl ih => exact .itemDeclaration (ih nofun (hsame.mono (by omega)))
  | declarationEnded htype hlist ihtype ihlist =>
    -- The type looks at the token behind it, which is the first of the list of declarators.
    have hlt := hlist.lt rfl
    exact .declarationEnded (ihtype nofun (hsame.mono (by omega))) (ihlist nofun hsame)
  | declarationSemi htype hlist hsemi ihtype ihlist =>
    have hle := hlist.le
    exact .declarationSemi (ihtype nofun (hsame.mono (by omega))) (ihlist nofun hsame)
      (hsame.kind_eq hsemi (by omega))
  | typeWords hi hfirst =>
    have hle := hfirst.le
    refine .typeWords ((hsame.typeWordAt (by omega)).mpr hi) (hfirst.congr fun m _ hm => ?_)
    rw [hsame.typeWordAt (by omega)]
  | typeStruct hi hname =>
    exact .typeStruct (hsame.kind_eq hi (by omega)) (hsame.kind_eq hname (by omega))
  | typeName hi => exact .typeName (hsame.kind_eq hi (by omega))
  | @declaratorList ended _ _ _ hlist ih =>
    refine .declaratorList (ih nofun ?_)
    cases ended <;> exact hsame
  | declaratorsEnded hfirst ih => exact .declaratorsEnded (ih nofun hsame)
  | declaratorsLast hfirst hcomma ih =>
    exact .declaratorsLast (ih nofun hsame) (hsame.kind_ne hcomma (by omega))
  | @declaratorsComma ended _ j k _ _ hfirst hcomma hlater ih ihlater =>
    have hlt := hlater.lt rfl
    -- Whether the later declarators end the declaration decides whether they look past `k`.
    have hbelow : SameBelow ts us k := hsame.mono (Symbol.le_reach (.declarators ended))
    exact .declaratorsComma (ih nofun (hbelow.mono (by omega)))
      (hbelow.kind_eq hcomma (by omega)) (ihlater nofun hsame)
  | prototype hi hlist hsemi ih =>
    have hlt := hlist.lt rfl
    exact .prototype (hsame.kind_eq hi (by omega)) (ih nofun (hsame.mono (by omega)))
      (hsame.kind_eq hsemi (by omega))
  | function hi hlist hbody ih ihbody =>
    have hlt := hlist.lt rfl
    have hlt' := hbody.lt rfl
    exact .function (hsame.kind_eq hi (by omega)) (ih nofun (hsame.mono (by omega)))
      (ihbody nofun hsame)
  | initialized hi hvalue ih =>
    have hlt := hvalue.lt rfl
    exact .initialized (hsame.kind_eq hi (by omega)) (ih nofun hsame)
  | plainDeclarator hi hparen hassign =>
    exact .plainDeclarator (hsame.kind_eq hi (by omega)) (hsame.kind_ne hparen (by omega))
      (hsame.kind_ne hassign (by omega))
  | parameterList hi hlist hclose ih =>
    have hle := hlist.le
    exact .parameterList (hsame.kind_eq hi (by omega)) (ih nofun hsame)
      (hsame.kind_eq hclose (by omega))
  | parametersNil hi => exact .parametersNil (hsame.kind_eq hi (by omega))
  | parametersComma hfirst hcomma hlater ih ihlater =>
    have hle := hlater.le
    exact .parametersComma (ih nofun (hsame.mono (by omega)))
      (hsame.kind_eq hcomma (by omega)) (ihlater nofun hsame)
  | parametersNext hfirst hcomma hlater ih ihlater =>
    have hle := hlater.le
    exact .parametersNext (ih nofun (hsame.mono (by omega)))
      (hsame.kind_ne hcomma (by omega)) (ihlater nofun hsame)
  | parameterNamed htype hname ih =>
    exact .parameterNamed (ih nofun (hsame.mono (by omega))) (hsame.kind_eq hname (by omega))
  | parameterUnnamed htype hname ih =>
    exact .parameterUnnamed (ih nofun hsame) (hsame.kind_ne hname (by omega))
  | initializer hi hend =>
    -- The token that ends the initializer is looked at and not taken.
    have hle := hend.le
    exact .initializer (hsame.kind_eq hi (by omega)) (hsame.endsInitializer hend)
  | block hi hlist hclose ih =>
    have hle := hlist.le
    exact .block (hsame.kind_eq hi (by omega)) (ih nofun hsame)
      (hsame.kind_eq hclose (by omega))
  | statementsNil hi => exact .statementsNil (hsame.kind_eq hi (by omega))
  | statementsCons hi hfirst hlater ih ihlater =>
    have hlt := hfirst.lt rfl
    have hle := hlater.le
    exact .statementsCons (hsame.kind_ne hi (by omega)) (ih nofun (hsame.mono (by omega)))
      (ihlater nofun hsame)
  | statementBlock hblock ih => exact .statementBlock (ih nofun (hsame.mono (by omega)))
  | ifStatement hi hguard hbody helse ihguard ihbody =>
    -- That no `else` follows is seen at the token behind the statement.
    have hlt := hguard.lt rfl
    have hle := hbody.le
    exact .ifStatement (hsame.kind_eq hi (by omega)) (ihguard nofun (hsame.mono (by omega)))
      (ihbody nofun hsame) (hsame.kind_ne helse (by omega))
  | ifElseStatement hi hguard hbody helse hother ihguard ihbody ihother =>
    have hlt := hguard.lt rfl
    have hle := hbody.le
    have hle' := hother.le
    exact .ifElseStatement (hsame.kind_eq hi (by omega)) (ihguard nofun (hsame.mono (by omega)))
      (ihbody nofun (hsame.mono (by omega))) (hsame.kind_eq helse (by omega))
      (ihother nofun hsame)
  | loopStatement hi hloop hguard hbody ihguard ihbody =>
    have hlt := hguard.lt rfl
    have hle := hbody.le
    exact .loopStatement (hsame.kind_eq hi (by omega)) hloop
      (ihguard nofun (hsame.mono (by omega))) (ihbody nofun hsame)
  | doWhileStatement hi hbody hwhile hguard hsemi ihbody ihguard =>
    have hlt := hbody.lt rfl
    have hlt' := hguard.lt rfl
    exact .doWhileStatement (hsame.kind_eq hi (by omega)) (ihbody nofun (hsame.mono (by omega)))
      (hsame.kind_eq hwhile (by omega)) (ihguard nofun (hsame.mono (by omega)))
      (hsame.kind_eq hsemi (by omega))
  | plainStatement hi hplain hfirst =>
    have hle := hfirst.le
    refine .plainStatement (hsame.kind_eq hi (by omega)) hplain (hfirst.congr fun m _ hm => ?_)
    rw [hsame.kindAt? (by omega)]
  | guard hcloses => exact .guard (hsame.closes hcloses)

/-! ### One list after the other -/

/-- The second list does not go on with the row of a directive that ends the first. -/
def RowEnds (ts : List Token) (children : List Node) (us : List Token) : Prop :=
  ∀ n, children.getLast? = some n → n.kind = .includeDirective ∨ n.kind = .defineDirective →
    rowAt? us 0 ≠ rowAt? ts n.span.start

/-- A list agrees with itself and another one behind it, up to its own end. -/
theorem sameBelow_append (ts us : List Token) : SameBelow ts (ts ++ us) ts.length :=
  fun _ hm => List.getElem?_append_left hm

/-- A top-level construct is the same construct in every list that has its tokens. A declaration
ends with a token of its own, so nothing more is asked of it. A directive ends where its row does,
so the token behind it has to be the same as before, or on another row. -/
theorem Derives.item_congr {node : Node} (h : Derives ts .item i j [node])
    (hsame : SameBelow ts us j)
    (hrow : node.kind = .includeDirective ∨ node.kind = .defineDirective →
      rowAt? us j = rowAt? ts j ∨ rowAt? us j ≠ rowAt? ts node.span.start) :
    Derives us .item i j [node] := by
  cases h with
  | itemDeclaration hdecl => exact .itemDeclaration (hdecl.congr_prefix nofun hsame)
  | @directive _ _ first kind hi hkind hfirst =>
    have hle := hfirst.le
    have hirow : rowAt? us i = rowAt? ts i := hsame.rowAt? (by omega)
    -- Both kinds of directive end where their row does, so they are one case.
    have hdirective : kind = .includeDirective ∨ kind = .defineDirective := by
      rcases Parse.directiveNode?_eq_some_iff.mp hkind with ⟨-, rfl⟩ | ⟨-, rfl⟩
      · exact .inl rfl
      · exact .inr rfl
    refine .directive (hsame.kind_eq hi (by omega)) hkind ⟨hle, ?_, fun m hm hmj => ?_⟩
    · rw [hirow]
      rcases hrow hdirective with heq | hne
      · rw [heq]
        exact hfirst.holds
      · exact hne
    · rw [hirow, hsame.rowAt? hmj]
      exact hfirst.least m hm hmj

/-- A top-level construct stays what it is in front of another list. -/
theorem Derives.item_append {node : Node} (h : Derives ts .item i j [node])
    (hrow : j = ts.length → node.kind = .includeDirective ∨ node.kind = .defineDirective →
      rowAt? us 0 ≠ rowAt? ts node.span.start) : Derives (ts ++ us) .item i j [node] := by
  have hlen := h.le_length
  refine h.item_congr ((sameBelow_append ts us).mono hlen) fun hkind => ?_
  by_cases hend : j = ts.length
  · -- The row would go on in the second list.
    have hj : rowAt? (ts ++ us) j = rowAt? us 0 := by
      rw [rowAt?, rowAt?, hend, List.getElem?_append_right (Nat.le_refl _), Nat.sub_self]
    rw [hj]
    exact .inr (hrow hend hkind)
  · exact .inl ((sameBelow_append ts us).rowAt? (by omega))

/-- Nothing but the empty run begins at the end of the list. -/
theorem Derives.items_nil_of_end {nodes : List Node} (h : Derives ts .items ts.length j nodes) :
    nodes = [] := by
  generalize hi : ts.length = i at h
  cases h with
  | itemsNil => rfl
  | itemsCons hfirst _ =>
    have hlt := hfirst.lt rfl
    have hle := hfirst.le_length
    omega

/-- The last construct of a run is that of the run behind the first, if that is not empty. -/
theorem RowEnds.tail {node : Node} {nodes : List Node} (h : RowEnds ts (node :: nodes) us) :
    RowEnds ts nodes us := by
  intro n hn
  refine h n ?_
  rw [List.getLast?_cons, hn, Option.getD_some]

namespace Parse

/-- In front of another list the top-level constructs are read as they stand, and the run goes on
in that list. -/
theorem result_many_topLevel_append {nodes : List Node} (h : Derives ts .items i j nodes)
    (hrow : RowEnds ts nodes us) :
    (many inUnit topLevel).result ⟨ts ++ us, i⟩ =
      ((many inUnit topLevel).result ⟨ts ++ us, ts.length⟩).map fun r => (nodes ++ r.1, r.2) := by
  generalize hsymbol : Symbol.items = symbol at h
  -- On the run of constructs: each is read as it stands, and the rest is the hypothesis.
  induction h with
  | itemsNil => cases (many inUnit topLevel).result ⟨ts ++ us, ts.length⟩ <;> rfl
  | @itemsCons i k _ node nodes hfirst hlater _ ih =>
    have hlt := hfirst.lt rfl
    have hlen := hfirst.le_length
    -- Only a construct that ends where the first list does is the last child.
    have hitem : Derives (ts ++ us) .item i k [node] := by
      refine hfirst.item_append fun hend hkind => hrow node ?_ hkind
      subst hend
      rw [hlater.items_nil_of_end]
      rfl
    have hmore : inUnit ⟨ts ++ us, i⟩ = true := by
      rw [inUnit_iff, List.length_append]
      omega
    rw [result_many_of_reads hmore (reads_topLevel_iff.mpr hitem) hlt
      (by rw [List.length_append]; omega), ih hrow.tail rfl]
    cases (many inUnit topLevel).result ⟨ts ++ us, ts.length⟩ <;> rfl
  | _ => cases hsymbol

/-- A fault in the second list is located at the same token, unless that list is empty. -/
theorem locate_append (hus : us ≠ []) (fault : SyntaxFault) (i : Nat) :
    Failure.locate ⟨fault, ts.length + i⟩ (ts ++ us) = Failure.locate ⟨fault, i⟩ us := by
  have hwhere : (Cursor.mk (ts ++ us) (ts.length + i)).whereToken? =
      (Cursor.mk us i).whereToken? := by
    rw [Cursor.whereToken?, Cursor.whereToken?, Cursor.peek?, Cursor.peek?,
      List.getElem?_append_right (by simp), List.getLast?_append,
      List.getLast?_eq_some_getLast hus, Option.some_or, Nat.add_sub_cancel_left]
  rw [Failure.locate, Failure.locate, Cursor.error, Cursor.error, hwhere]

end Parse

/-- A parse is the run of top-level constructs from the front of the list on. -/
theorem parse_eq (ts : List Token) :
    parse ts = match (Parse.many Parse.inUnit Parse.topLevel).result ⟨ts, 0⟩ with
      | .ok (nodes, _) => .ok ⟨.unit, ⟨0, ts.length⟩, nodes⟩
      | .error failure => .error (failure.locate ts) := by
  cases hrun : (Parse.many Parse.inUnit Parse.topLevel).result ⟨ts, 0⟩ with
  | ok r =>
    obtain ⟨nodes, j⟩ := r
    have hend := Parse.eq_length_of_reads_many_topLevel hrun (Nat.zero_le _)
    subst hend
    exact parse_eq_ok_iff_isUnit.mpr ⟨nodes, Parse.reads_many_topLevel_iff.mp ⟨hrun, rfl⟩, rfl⟩
  | error failure =>
    -- The run is the first step of a unit that can fail.
    have hunit : Parse.unit.result ⟨ts, 0⟩ = .error failure := by
      refine Parse.result_bind_eq_error_iff.mpr (.inr ⟨0, 0, rfl, ?_⟩)
      exact Parse.result_bind_eq_error_iff.mpr (.inl hrun)
    rw [parse_eq_result, hunit]

/-- Two runs of top-level constructs, one after the other, are one run. -/
theorem Derives.items_append {nodes later : List Node} (h : Derives ts .items 0 ts.length nodes)
    (hlater : Derives us .items 0 us.length later) (hrow : RowEnds ts nodes us) :
    Derives (ts ++ us) .items 0 (ts ++ us).length (nodes ++ later.map (Node.shift ts.length)) := by
  -- The second run is read alone, and so it is read behind the first, moved.
  have halone := (Parse.reads_many_topLevel_iff.mpr hlater).1
  have hbehind := Parse.sim_many_topLevel (alike_append ts us) 0
  rw [halone, Nat.add_zero] at hbehind
  have hrun := Parse.result_many_topLevel_append h hrow
  generalize (Parse.many Parse.inUnit Parse.topLevel).result ⟨ts ++ us, ts.length⟩ = behind
    at hbehind hrun
  cases hbehind with
  | ok hshift =>
    subst hshift
    rw [List.length_append]
    exact Parse.reads_many_topLevel_iff.mp ⟨hrun, (List.length_append).symm⟩

/-- Two lists, one after the other, are parsed one after the other. If the first is a unit, the
tree of both together has the children of the first tree and then those of the second, moved
behind the first list, and the error of the second list is the error of both together. -/
theorem parse_append {u : Node} (h : parse ts = .ok u) (hrow : RowEnds ts u.children us) :
    parse (ts ++ us) = (parse us).map fun v =>
      ⟨.unit, ⟨0, (ts ++ us).length⟩, u.children ++ v.children.map (Node.shift ts.length)⟩ := by
  obtain ⟨nodes, hnodes, rfl⟩ := parse_eq_ok_iff_isUnit.mp h
  have hfirst := Parse.result_many_topLevel_append hnodes hrow
  -- Behind the first list the second is read as it would be alone.
  have hsecond := Parse.sim_many_topLevel (alike_append ts us) 0
  rw [Nat.add_zero] at hsecond
  -- An empty list has no error.
  have hempty : us = [] →
      (Parse.many Parse.inUnit Parse.topLevel).result ⟨us, 0⟩ = .ok ([], 0) := by
    rintro rfl
    exact Parse.reads_many_iff.mpr (.inl ⟨rfl, rfl, rfl⟩)
  rw [parse_eq (ts ++ us), parse_eq us, hfirst]
  revert hsecond hempty
  generalize (Parse.many Parse.inUnit Parse.topLevel).result ⟨us, 0⟩ = alone
  generalize (Parse.many Parse.inUnit Parse.topLevel).result ⟨ts ++ us, ts.length⟩ = behind
  intro hsecond hempty
  cases hsecond with
  | ok hshift =>
    subst hshift
    rfl
  | @error fault k =>
    have hus : us ≠ [] := by
      intro hnil
      cases hempty hnil
    show Except.error (Failure.locate ⟨fault, ts.length + k⟩ (ts ++ us)) = .error _
    rw [Parse.locate_append hus]

/-- A directive that ends the first list is followed by a declaration on the next row. -/
theorem parse_append_directive :
    parse (tokensOnRow 0 [.includeDirective, .stringLiteral] ++
        tokensOnRow 1 [.tyInt, .identifier, .semi]) =
      .ok ⟨.unit, ⟨0, 5⟩, [.leaf .includeDirective ⟨0, 2⟩,
        ⟨.declaration, ⟨2, 5⟩, [.leaf .type ⟨2, 3⟩,
          ⟨.declaratorList, ⟨3, 4⟩, [.leaf .declarator ⟨3, 4⟩]⟩]⟩]⟩ := by
  have hfirst : parse (tokensOnRow 0 [.includeDirective, .stringLiteral]) =
      .ok ⟨.unit, ⟨0, 2⟩, [.leaf .includeDirective ⟨0, 2⟩]⟩ :=
    parse_eq_ok_of_toOption (by decide +kernel)
  have hsecond : parse (tokensOnRow 1 [.tyInt, .identifier, .semi]) =
      .ok ⟨.unit, ⟨0, 3⟩, [⟨.declaration, ⟨0, 3⟩, [.leaf .type ⟨0, 1⟩,
        ⟨.declaratorList, ⟨1, 2⟩, [.leaf .declarator ⟨1, 2⟩]⟩]⟩]⟩ :=
    parse_eq_ok_of_toOption (by decide +kernel)
  rw [parse_append hfirst, hsecond]
  · simp [Except.map, Span.shift, tokensOnRow]
  · -- The directive stands on row 0, and the second list begins on row 1.
    intro n hn _
    cases hn
    decide

end LooseC
