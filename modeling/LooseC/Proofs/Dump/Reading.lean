import LooseC.Proofs.Dump.Lines
import LooseC.Proofs.Tree.Outline

/-!
# Reading a tree dump back

A lexeme stands in a tree dump as it is, and it may hold brackets, blanks and newlines. The dump of
a program can still be read in one way only. From the left, the blanks of a line end at the name
and tell the depth, and the name ends at the bracket. What follows is a lexeme in front of a
bracket, and a bracket ends every token, so the lexeme ends where it would be lexed to end
(`Lexed.lexeme_append_inj`). Behind the bracket, nothing holds a newline but the end of the line.

So a line tells the depth, the kind and the first lexeme of its node and where the next line begins
(`plainTreeLine_append_inj`), the dump tells them of every node in the order of the walk
(`rows_eq_of_join_eq`), and that is the outline of the tree (`dumpTree_injective`).
-/

set_option autoImplicit false

namespace LooseC

/-- What a tree dump shows of a node: its kind, and the lexeme of its first token if it has one. -/
def Node.shown (ts : List Token) (n : Node) : NodeKind × Option String :=
  (n.kind, (n.firstToken? ts).map Token.lexeme)

/-- Different kinds have different names. -/
theorem NodeKind.name_inj {k l : NodeKind} (h : k.name = l.name) : k = l := by
  have hread := ofName?_name k
  rw [h, ofName?_name] at hread
  exact (Option.some.inj hread).symm

/-! ### One line -/

/-- A text is cut in one way where a property fails for the first time. -/
theorem append_inj_of_cut {α : Type} {p : α → Bool} {xs xs' ys ys' : List α}
    (hxs : ∀ a ∈ xs, p a = true) (hys : ∀ a ∈ ys.head?, p a = false)
    (hxs' : ∀ a ∈ xs', p a = true) (hys' : ∀ a ∈ ys'.head?, p a = false)
    (h : xs ++ ys = xs' ++ ys') : xs = xs' ∧ ys = ys' := by
  have hcut := cut_append hxs hys
  rw [h, (cut_append hxs' hys').1, (cut_append hxs' hys').2] at hcut
  exact ⟨hcut.1.symm, hcut.2.symm⟩

section
variable {options : DumpOptions} {ts us : List Token} {v u : Visit} {x y : List Char}

/-- The characters of a node's line. -/
theorem toList_plainTreeLine (options : DumpOptions) (ts : List Token) (v : Visit) (x : List Char) :
    (plainTreeLine options ts v).toList ++ '\n' :: x =
      List.replicate (v.depth * options.indent) ' ' ++ (v.node.kind.name.toList ++
        '[' :: ((v.node.firstLexeme ts).toList ++
          ']' :: ((plainPlace options (v.node.firstToken? ts)).toList ++ '\n' :: x))) := by
  simp [plainTreeLine]

/-- The name is what follows the blanks. -/
theorem indent_inj {m n : Nat} {k l : NodeKind}
    (h : List.replicate m ' ' ++ (k.name.toList ++ '[' :: x) =
      List.replicate n ' ' ++ (l.name.toList ++ '[' :: y)) :
    m = n ∧ k.name.toList ++ '[' :: x = l.name.toList ++ '[' :: y := by
  have hblank (m : Nat) : ∀ c ∈ List.replicate m ' ', (c == ' ') = true := by
    intro c hc
    rw [List.eq_of_mem_replicate hc]
    rfl
  -- A name does not begin with a blank, and if it were empty the bracket would follow.
  have hstop (k : NodeKind) (x : List Char) :
      ∀ c ∈ (k.name.toList ++ '[' :: x).head?, (c == ' ') = false := by
    intro c hc
    cases hname : k.name.toList with
    | nil =>
      rw [hname] at hc
      cases hc
      rfl
    | cons d name =>
      rw [hname] at hc
      cases hc
      have hpart := k.mem_name (hname ▸ List.mem_cons_self)
      rw [beq_eq_false_iff_ne]
      intro hc
      subst hc
      cases hpart
  have hcut := append_inj_of_cut (hblank m) (hstop k x) (hblank n) (hstop l y) h
  have hlength := congrArg List.length hcut.1
  rw [List.length_replicate, List.length_replicate] at hlength
  exact ⟨hlength, hcut.2⟩

/-- The name ends at the bracket. -/
theorem name_append_inj {k l : NodeKind}
    (h : k.name.toList ++ '[' :: x = l.name.toList ++ '[' :: y) : k = l ∧ x = y := by
  have hstop (x : List Char) : ∀ c ∈ ('[' :: x).head?, isNamePart c = false := by
    intro c hc
    cases hc
    rfl
  have hcut := append_inj_of_cut (fun _ => k.mem_name) (hstop x) (fun _ => l.mem_name) (hstop y) h
  exact ⟨NodeKind.name_inj (String.toList_inj.mp hcut.1), (List.cons.inj hcut.2).2⟩

/-- The line ends behind the place. -/
theorem place_append_inj {first last : Option Token}
    (h : (plainPlace options first).toList ++ '\n' :: x =
      (plainPlace options last).toList ++ '\n' :: y) : x = y := by
  have hline (first : Option Token) :
      ∀ c ∈ (plainPlace options first).toList, (c != '\n') = true := by
    intro c hc
    rw [bne_iff_ne]
    intro hnewline
    subst hnewline
    exact newline_not_mem_plainPlace options first hc
  have hstop (x : List Char) : ∀ c ∈ ('\n' :: x).head?, (c != '\n') = false := by
    intro c hc
    cases hc
    rfl
  -- A place holds no newline, so both lines end where the first newline stands.
  have hcut := append_inj_of_cut (hline first) (hstop x) (hline last) (hstop y) h
  exact (List.cons.inj hcut.2).2

/-- A closing bracket ends every token. -/
theorem stops_bracket (x : List Char) : Stops (']' :: x) := by
  intro c hc
  cases hc
  decide +kernel

/-- Empty brackets show no lexeme. The lexeme in question would be a bracket, and then another
bracket would have to stand where the line ends. -/
theorem lexeme_ne_nil {t : Token} (ht : Lexed t) :
    t.lexeme.toList ++ ']' :: x ≠ ']' :: '\n' :: y := by
  intro h
  have hbracket : Lexed ⟨.rbracket, "]", .origin⟩ := ⟨"]", by decide +kernel⟩
  have hnewline : Stops ('\n' :: y) := by
    intro c hc
    cases hc
    exact endsToken_of_isBlank isBlank_newline
  cases (ht.lexeme_append_inj hbracket (stops_bracket x) hnewline h).2

/-- The bracket that closes a lexeme is found behind it, and the next line behind that. -/
theorem bracket_append_inj {first last : Option Token} (hfirst : ∀ t ∈ first, Lexed t)
    (hlast : ∀ t ∈ last, Lexed t)
    (h : ((first.map Token.lexeme).getD "").toList ++
        ']' :: ((plainPlace options first).toList ++ '\n' :: x) =
      ((last.map Token.lexeme).getD "").toList ++
        ']' :: ((plainPlace options last).toList ++ '\n' :: y)) :
    first.map Token.lexeme = last.map Token.lexeme ∧ x = y := by
  cases first with
  | none =>
    cases last with
    | none => exact ⟨rfl, place_append_inj (List.cons.inj h).2⟩
    | some u => exact absurd h.symm (lexeme_ne_nil (hlast u rfl))
  | some t =>
    cases last with
    | none => exact absurd h (lexeme_ne_nil (hfirst t rfl))
    | some u =>
      have hcut := (hfirst t rfl).lexeme_append_inj (hlast u rfl) (stops_bracket _)
        (stops_bracket _) h
      exact ⟨congrArg some hcut.1, place_append_inj (List.cons.inj hcut.2).2⟩

/-- The tokens of a node are tokens of the program. -/
theorem lexed_firstToken? (hts : ∀ t ∈ ts, Lexed t) (n : Node) :
    ∀ t ∈ n.firstToken? ts, Lexed t := by
  intro t ht
  exact hts t (mem_tokens (List.mem_of_mem_head? ht))

/-- A line tells the depth of its node and what is shown of it, and where the next line begins. -/
theorem plainTreeLine_append_inj (hindent : 1 ≤ options.indent) (hts : ∀ t ∈ ts, Lexed t)
    (hus : ∀ t ∈ us, Lexed t)
    (h : (plainTreeLine options ts v).toList ++ '\n' :: x =
      (plainTreeLine options us u).toList ++ '\n' :: y) :
    v.row (Node.shown ts) = u.row (Node.shown us) ∧ x = y := by
  rw [toList_plainTreeLine, toList_plainTreeLine] at h
  obtain ⟨hblanks, hnames⟩ := indent_inj h
  obtain ⟨hkind, hlexemes⟩ := name_append_inj hnames
  obtain ⟨hlexeme, hrest⟩ := bracket_append_inj (lexed_firstToken? hts v.node)
    (lexed_firstToken? hus u.node) hlexemes
  have hdepth : v.depth = u.depth := Nat.eq_of_mul_eq_mul_right hindent hblanks
  simp [Visit.row, Node.shown, hdepth, hkind, hlexeme, hrest]

end

/-! ### The whole dump -/

section
variable {options : DumpOptions} {ts us : List Token}

/-- Lines that make the same text tell the same, one by one. -/
theorem rows_eq_of_join_eq (hindent : 1 ≤ options.indent) (hts : ∀ t ∈ ts, Lexed t)
    (hus : ∀ t ∈ us, Lexed t) {vs ws : List Visit}
    (h : String.join (vs.map fun v => plainTreeLine options ts v ++ "\n") =
      String.join (ws.map fun w => plainTreeLine options us w ++ "\n")) :
    vs.map (Visit.row (Node.shown ts)) = ws.map (Visit.row (Node.shown us)) := by
  have hline (ts : List Token) (v : Visit) (later : String) :
      (plainTreeLine options ts v ++ "\n" ++ later).toList =
        (plainTreeLine options ts v).toList ++ '\n' :: later.toList := by simp
  have hne (ts : List Token) (v : Visit) (later : String) :
      plainTreeLine options ts v ++ "\n" ++ later ≠ "" := by
    intro hempty
    have hchars := congrArg String.toList hempty
    rw [hline] at hchars
    simp at hchars
  -- Line by line. No line is empty, so both texts have the same number of them.
  induction vs generalizing ws with
  | nil =>
    cases ws with
    | nil => rfl
    | cons w ws =>
      rw [List.map_cons, String.join_cons] at h
      exact absurd h.symm (hne us w _)
  | cons v vs ih =>
    cases ws with
    | nil =>
      rw [List.map_cons, String.join_cons] at h
      exact absurd h (hne ts v _)
    | cons w ws =>
      have hchars := congrArg String.toList h
      rw [List.map_cons, List.map_cons, String.join_cons, String.join_cons, hline, hline] at hchars
      obtain ⟨hrow, hlater⟩ := plainTreeLine_append_inj hindent hts hus hchars
      rw [List.map_cons, List.map_cons, hrow, ih (String.toList_inj.mp hlater)]

end

/-- Without colours and with some blanks for each level, programs with the same tree dump have trees
with the same outline: the same kind and the same first lexeme at every place, spans apart. -/
theorem dumpTree_injective {name name' source source' : String} {a b : Snapshot}
    {wrap : Wrapping} {options : DumpOptions} (ha : Snapshot.analyze name source = .ok a)
    (hb : Snapshot.analyze name' source' = .ok b) (hindent : 1 ≤ options.indent)
    (hplain : options.colour = false)
    (h : dumpTree wrap options a.tree a.tokens = dumpTree wrap options b.tree b.tokens) :
    a.tree.outline (Node.shown a.tokens) = b.tree.outline (Node.shown b.tokens) := by
  simp only [dumpTree, treeLine_plain hplain] at h
  exact Node.outline_eq_of_walk
    (rows_eq_of_join_eq hindent (lexed_of_analyze ha) (lexed_of_analyze hb) h)

/-- A literal that looks like the rest of its line and another line, alone and in a sum. Only the
spans of the trees differ, and the dumps are the same. -/
theorem dumpTree_injective_literal :
    ∃ a b, Snapshot.analyze "a" "int x=\"]\n  TYPE[int\";" = .ok a ∧
      Snapshot.analyze "b" "int x = \"]\n  TYPE[int\" + 1;" = .ok b ∧
      dumpTree .standard {} a.tree a.tokens = dumpTree .standard {} b.tree b.tokens ∧
      a.tree.outline (Node.shown a.tokens) = b.tree.outline (Node.shown b.tokens) := by
  have hdumps : (Snapshot.analyze "a" "int x=\"]\n  TYPE[int\";").toOption.map
        (fun a => dumpTree .standard {} a.tree a.tokens) =
      (Snapshot.analyze "b" "int x = \"]\n  TYPE[int\" + 1;").toOption.map
        (fun b => dumpTree .standard {} b.tree b.tokens) := by decide +kernel
  have hsome : (Snapshot.analyze "a" "int x=\"]\n  TYPE[int\";").toOption.isSome = true := by
    decide +kernel
  cases ha : Snapshot.analyze "a" "int x=\"]\n  TYPE[int\";" with
  | error e =>
    rw [ha] at hsome
    cases hsome
  | ok a =>
    cases hb : Snapshot.analyze "b" "int x = \"]\n  TYPE[int\" + 1;" with
    | error e =>
      rw [ha, hb] at hdumps
      cases hdumps
    | ok b =>
      rw [ha, hb] at hdumps
      have hsame := Option.some.inj hdumps
      exact ⟨a, b, rfl, rfl, hsame, dumpTree_injective ha hb (by decide) rfl hsame⟩

end LooseC
