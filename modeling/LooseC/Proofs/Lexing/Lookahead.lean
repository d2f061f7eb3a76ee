import LooseC.Proofs.Lexing.Rescan
import LooseC.Proofs.Lexing.Session
import LooseC.Proofs.Lexing.Tiling

/-!
# One character of lookahead

Where a token ends is decided by the character behind it, and no reader looks further. So two texts
that agree up to the end of some token, and on the one character behind it, are lexed alike up to
that token, whatever else follows in either of them.

`Lexer.prefix_of_lookahead` says it of runs, by induction over the run on the first text: a token is
read again by `split_rescan`, because the text behind it begins with the same character in both.
`session_lookahead` is the statement for two sources and the first reads of each.
-/

set_option autoImplicit false

namespace LooseC

variable {p : Position} {cs rest rest' : List Char} {tokens : List Token}

/-- What is left of a text is an end of it. -/
theorem Leaves.suffix (h : Leaves p cs tokens rest) : ∃ front, front ++ rest = cs := by
  obtain ⟨pieces, -, htext, -⟩ := h
  exact ⟨weave pieces, htext⟩

namespace Lexer

/-- Tokens at the front of a run are at the front of every run on a text that agrees with the first
text up to the end of these tokens and on the character behind them. -/
theorem prefix_of_lookahead {front : List Char} (htokens : tokens <+: (run ⟨cs, p⟩).tokens)
    (hcs : cs = front ++ rest) (hleaves : Leaves p cs tokens rest)
    (hnext : rest'.head? = rest.head?) : tokens <+: (run ⟨front ++ rest', p⟩).tokens := by
  revert htokens hcs hleaves
  refine run_induction (motive := fun lx out => ∀ {tokens : List Token} {front : List Char},
    tokens <+: out.tokens → lx.rest = front ++ rest → Leaves lx.position lx.rest tokens rest →
      tokens <+: (run ⟨front ++ rest', lx.position⟩).tokens) ?_ ?_ ?_ cs p
  · intro cs p gap _ tokens front htokens _ _
    rw [List.prefix_nil.mp htokens]
    exact List.nil_prefix
  · intro cs p gap c r s hsplit hs ih tokens front htokens hcs hleaves
    cases tokens with
    | nil => exact List.nil_prefix
    | cons t later =>
      obtain ⟨rfl, hlater⟩ := List.cons_prefix_cons.mp htokens
      have hbehind := (leaves_token_iff hsplit hs).mp hleaves
      -- The tokens behind the first one stand between it and the character looked at.
      obtain ⟨between, hbetween⟩ := hbehind.suffix
      have hbetween : between ++ rest = s.rest := hbetween
      have hfront : front = gap ++ s.lexeme ++ between := by
        have htext := append_of_token hsplit hs
        rw [← hbetween, ← List.append_assoc] at htext
        have hsame : gap ++ s.lexeme ++ between ++ rest = front ++ rest := htext.trans hcs
        exact (List.append_cancel_right hsame).symm
      have hends : EndsLike s.rest (between ++ rest') := by
        intro d hd
        rw [List.head?_append, hnext, ← List.head?_append, hbetween] at hd
        exact .inr hd
      obtain ⟨hsplit', hs'⟩ := split_rescan hsplit hs hends
      rw [hfront, List.append_assoc, run_of_token hsplit' hs', List.cons_prefix_cons]
      exact ⟨rfl, ih hlater hbetween.symm hbehind⟩
  · intro cs p gap c r f _ _ tokens front htokens _ _
    rw [List.prefix_nil.mp htokens]
    exact List.nil_prefix

/-- Runs that begin with the same tokens answer the calls for these tokens alike. -/
theorem answer_of_prefix {r r' : Run} {before : List Call} {c : Call}
    (hr : tokens <+: r.tokens) (hr' : tokens <+: r'.tokens) (hbefore : .tokenize ∉ before)
    (hc : c ≠ .tokenize) (hlt : before.length < tokens.length) :
    r.answer before c = r'.answer before c := by
  have hgiven {r : Run} (hr : tokens <+: r.tokens) :
      r.answer before c = .token tokens[before.length] := by
    rw [answer_of_lt hbefore hc (Nat.lt_of_lt_of_le hlt hr.length_le), hr.getElem]
  rw [hgiven hr, hgiven hr']

/-- One character of lookahead decides every token. Let a lexer yield more than `k` tokens on `s`,
and let `e` be the offset at which the last of the first `k + 1` ends. On a source with the same
first `e` characters and the same character behind them, or none behind them in both, the first
`k + 1` reads give the same. -/
theorem session_lookahead {s s' : String} {k e : Nat} (hk : k < (ofSource s).run.tokens.length)
    (he : Leaves .origin s.toList ((ofSource s).run.tokens.take (k + 1)) (s.toList.drop e))
    (hfront : s'.toList.take e = s.toList.take e) (hnext : s'.toList[e]? = s.toList[e]?)
    {calls : List Call} (hcalls : calls.length = k + 1) (hreads : .tokenize ∉ calls) :
    (ofSource s').session calls = (ofSource s).session calls := by
  have hs : (ofSource s).run.tokens.take (k + 1) <+: (ofSource s).run.tokens :=
    List.take_prefix _ _
  -- The front of the text and one character decide the first tokens of both runs.
  have hs' : (ofSource s).run.tokens.take (k + 1) <+: (ofSource s').run.tokens := by
    have hhead : (s'.toList.drop e).head? = (s.toList.drop e).head? := by
      rw [List.head?_drop, List.head?_drop, hnext]
    have hsame := prefix_of_lookahead hs (List.take_append_drop e s.toList).symm he hhead
    rw [← hfront, List.take_append_drop] at hsame
    exact hsame
  have hlength : ((ofSource s).run.tokens.take (k + 1)).length = k + 1 := by
    rw [List.length_take]
    omega
  -- Each answer is that of the run to one call, and the runs begin alike.
  rw [session_eq_mapIdx, session_eq_mapIdx]
  refine List.mapIdx_eq_mapIdx_iff.mpr fun i hi => ?_
  have hread : calls[i] ≠ .tokenize := fun heq => hreads (heq ▸ List.getElem_mem hi)
  have hbefore : .tokenize ∉ calls.take i := fun hmem => hreads (List.mem_of_mem_take hmem)
  refine answer_of_prefix hs' hs hbefore hread ?_
  rw [List.length_take, hlength]
  omega

/-- The plus sign of `a+ b` ends in front of the space, and so it does in `a+ =`. -/
theorem session_lookahead_operator :
    (ofSource "a+ =").session [.readNext, .next] = (ofSource "a+ b").session [.readNext, .next] := by
  have htokens : (ofSource "a+ b").run.tokens = [⟨.identifier, "a", ⟨0, 0⟩⟩, ⟨.plus, "+", ⟨0, 1⟩⟩,
      ⟨.identifier, "b", ⟨0, 3⟩⟩] := by decide +kernel
  refine session_lookahead (k := 1) (e := 2) ?_ ?_ (by decide) (by decide) rfl (by decide)
  · rw [htokens]
    decide
  · rw [htokens]
    exact ⟨[([], ⟨.identifier, "a", ⟨0, 0⟩⟩), ([], ⟨.plus, "+", ⟨0, 1⟩⟩)], rfl, by decide,
      .cons .nil (by decide) rfl (.cons .nil (by decide) rfl .nil)⟩

end Lexer

end LooseC
