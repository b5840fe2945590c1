import DocSelect.Proofs.Brackets.Production
import DocSelect.Proofs.Tokens

/-!
# The brackets of a selector

A text that is a selector is one to its end: the parser comes to the end of the input, and the
brackets that it has taken on the way are matched.
-/
namespace DocSelect

open DocSelect.Parser

variable {c c' : Cursor} {es : List Expr} {tokens : List Token} {stack : List TokenKind}
  {s : String}

namespace Cursor

theorem of_tokenize (h : tokenize s = .ok tokens) :
    (ofTokens tokens).toList = tokens ∧ (ofTokens tokens).EndsOnce := by
  have hcovers := covers_of_tokenize h
  have hlist : (ofTokens tokens).toList = tokens := by
    rw [toList_ofTokens, ended_of_getLast? hcovers.last rfl]
  refine ⟨hlist, ended_ofTokens tokens, fun t ht => (hcovers.lexemes t ?_).1⟩
  rwa [hlist] at ht

end Cursor

theorem Cursor.EndsOnce.after {α : Type} {x : Parser α} {r : α} {before after : List TokenKind}
    (h : c.EndsOnce) (hx : x.Balances c before after) (hrun : x.exec c = (.ok r, c')) :
    c'.EndsOnce := by
  obtain ⟨hended, taken, htaken, -⟩ := hx h.ended r c' hrun
  refine ⟨hended, fun t ht => h.inside t ?_⟩
  rw [htaken, List.dropLast_append_of_ne_nil (by simp [toList])]
  exact List.mem_append_right _ ht

theorem Parser.end_of_sequenceLoop {nested : Nested} (hn : nested.Balanced) {scope : Scope}
    {separator : TokenKind} (hseparator : separator.isBracket = false) {fuel : Nat} {filled : Bool}
    (hc : c.EndsOnce)
    (h : (sequenceLoop nested scope .eof separator fuel filled).exec c = (.ok es, c')) :
    c'.rest = [] ∧ c'.kind = .eof := by
  induction fuel generalizing filled c es with
  | zero => cases h
  | succ fuel ih =>
    obtain ⟨_, _, hlook, h⟩ := exec_bind_eq_ok_iff.1 h
    cases hlook
    split at h
    · rename_i hk
      obtain ⟨_, _, hadvance, h⟩ := exec_bind_eq_ok_iff.1 h
      cases hadvance
      cases h
      have hrest := hc.rest_eq_nil hk
      rw [Cursor.advance, hrest]
      exact ⟨hrest, hk⟩
    split at h
    · rename_i hk
      split at h
      · obtain ⟨_, _, hadvance, h⟩ := exec_bind_eq_ok_iff.1 h
        exact ih (hc.after (.advance (pending_of_not_bracket (hk ▸ hseparator) [])) hadvance) h
      · cases h
    · obtain ⟨e, c₁, hfirst, h⟩ := exec_bind_eq_ok_iff.1 h
      obtain ⟨es', c₂, hloop, h⟩ := exec_bind_eq_ok_iff.1 h
      cases h
      exact ih (hc.after (hn scope .default c []) hfirst) hloop

/-- A selector is parsed up to the end of its text, and its brackets are matched. -/
theorem matched_of_parse {e : Expr} (h : parse s = .ok e) :
    ∃ tokens c, tokenize s = .ok tokens ∧
      selector.exec (Cursor.ofTokens tokens) = (.ok e, c) ∧
      c.toList = [.atEnd s.length] ∧ Matched (tokens.map Token.kind) := by
  unfold parse at h
  rcases htokens : tokenize s with err | tokens <;> rw [htokens] at h
  · cases h
  obtain ⟨hlist, honce⟩ := Cursor.of_tokenize htokens
  rcases hrun : selector.exec (Cursor.ofTokens tokens) with ⟨result, c⟩
  obtain rfl : result = .ok e := (congrArg Prod.fst hrun).symm.trans h
  have hbalanced := expression_balanced maxDepth
  obtain ⟨es, c₁, hloop, hpure⟩ := exec_bind_eq_ok_iff.1 hrun
  cases hpure
  have hwhole : (sequence (expression maxDepth) .root .eof .semicolon).Balances
      (Cursor.ofTokens tokens) [] [] :=
    hbalanced.sequence .root rfl rfl
  obtain ⟨-, taken, htaken, hpending⟩ := hwhole honce.ended _ _ hloop
  obtain ⟨_, _, hrounds, hloop⟩ := exec_bind_eq_ok_iff.1 hloop
  cases hrounds
  obtain ⟨hrest, hkind⟩ := end_of_sequenceLoop hbalanced rfl honce hloop
  have hstop : c.toList = [c.current] := by rw [Cursor.toList, hrest]
  rw [hlist, hstop] at htaken
  have hcurrent : c.current = .atEnd s.length := by
    have hlast := (covers_of_tokenize htokens).last
    rw [htaken, List.getLast?_concat] at hlast
    exact Option.some.inj hlast
  refine ⟨tokens, c, rfl, hrun, hcurrent ▸ hstop, matched_iff.2 ?_⟩
  rw [htaken, List.map_append, List.map_singleton]
  refine pendingAfter_append hpending ?_
  rw [hcurrent]
  rfl

/-- Brackets of all kinds in one another. -/
theorem matched_of_parse_nested :
    let s := "if (a[0]) {f([1, {b: (2)}])}"
    (parse s).toOption.isSome = true ∧ ∃ e tokens c, parse s = .ok e ∧
      tokenize s = .ok tokens ∧
      selector.exec (Cursor.ofTokens tokens) = (.ok e, c) ∧ c.toList = [.atEnd s.length] ∧
      Matched (tokens.map Token.kind) := by
  intro s
  have hsome : (parse s).toOption.isSome = true := by decide +kernel
  rcases hparse : parse s with err | e
  · rw [hparse] at hsome
    cases hsome
  · obtain ⟨tokens, c, hmatched⟩ := matched_of_parse hparse
    exact ⟨rfl, e, tokens, c, rfl, hmatched⟩

end DocSelect
