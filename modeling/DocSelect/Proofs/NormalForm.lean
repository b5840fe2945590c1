import DocSelect.Proofs.Joining.Statement
import DocSelect.Proofs.NormalForm.Production
import Mathlib

/-!
# The normal form of parsed trees

The tree of every selector is in normal form, the empty chain of a blank one apart.
-/
namespace DocSelect

open DocSelect.Parser

variable {s : String} {e : Expr} {tokens : List Token}

theorem Cursor.taken_of_tokenize (h : tokenize s = .ok tokens) {c : Cursor}
    (hc : c.toList ⊆ tokens) :
    c.Taken := fun t ht => Lexer.exists_next_of_tokens h t (hc ht)

theorem parse_of_isBlankText (h : isBlankText s = true) : parse s = .ok (.chain []) := by
  have htokens : tokenize s = .ok [.atEnd (0 + s.toList.length)] :=
    Lexer.tokens_blank 0 (List.all_eq_true.1 h) s.toList.length
  rw [parse, htokens]
  rfl

theorem tidy_of_selector {c c' : Cursor} (hc : c.Taken) (hk : c.kind ≠ .eof)
    (h : selector.exec c = (.ok e, c')) : e.Tidy := by
  have hensures : selector.Ensures c fun e _ => e.Tidy := by
    unfold selector
    refine .bind ((forms_expression maxDepth).sequence _ _ _) fun es _ hes => .pure ?_
    exact Expr.tidy_chained (fun hnil => hk (hes.2 hnil)) hes.1
  exact (hensures hc e c' h).2

theorem tidy_of_parse (h : parse s = .ok e) (hs : isBlankText s = false) : e.Tidy := by
  unfold parse at h
  rcases htokens : tokenize s with err | tokens <;> rw [htokens] at h
  · cases h
  rcases hrun : selector.exec (Cursor.ofTokens tokens) with ⟨result, c⟩
  obtain rfl : result = .ok e := (congrArg Prod.fst hrun).symm.trans h
  obtain ⟨hlist, -⟩ := Cursor.of_tokenize htokens
  refine tidy_of_selector (Cursor.taken_of_tokenize htokens fun t ht => hlist ▸ ht)
    (fun heof => ?_) hrun
  cases hs.symm.trans (isBlankText_of_eof htokens heof)

/-- Every node of the tree of a selector is as it should be, and a chain is put together again from
its last step and those before it. The tree of a blank selector is the empty chain. Wherever among
the tokens a number is read for a minus before it, there is room for its negation. -/
theorem normal_form_of_parse (h : parse s = .ok e) :
    (isBlankText s = true → e = .chain []) ∧
    (isBlankText s = false → ∀ p, e.Part p → p.Normal ∧ ∀ steps, p = .chain steps →
      ∃ rest, p.dropLast? = some rest ∧ Expr.chained [rest, p.last] = p) ∧
    ∀ tokens, tokenize s = .ok tokens → ∀ c c' levels i, c.toList <:+ tokens →
      (chain (expression levels)).exec c = (.ok (.integer i), c') → (-i).toInt = -i.toInt := by
  refine ⟨fun hs => ?_, fun hs p hp => ⟨tidy_of_parse h hs p hp, ?_⟩, ?_⟩
  · exact Except.ok.inj (h.symm.trans (parse_of_isBlankText hs))
  · rintro steps rfl
    exact Expr.chained_dropLast?_last (tidy_of_parse h hs _ hp)
  · intro tokens htokens c c' levels i hc hrun
    have hchain :=
      (forms_expression levels).chain (Cursor.taken_of_tokenize htokens hc.subset) _ _ hrun
    exact hchain.2.toInt_neg

/-- A chain as the target of an assignment, and a negative number. -/
theorem normal_form_of_parse_assignment :
    let e := Expr.assign (.chain [.property "a", .property "b"]) none (.integer (-1))
    parse "a.b = -1" = .ok e ∧ isBlankText "a.b = -1" = false ∧
      ∀ p, e.Part p → p.Normal ∧ ∀ steps, p = .chain steps →
        ∃ rest, p.dropLast? = some rest ∧ Expr.chained [rest, p.last] = p := by
  have hparse : parse "a.b = -1" =
      .ok (.assign (.chain [.property "a", .property "b"]) none (.integer (-1))) := by cbv
  have hfilled : isBlankText "a.b = -1" = false := by decide
  exact ⟨hparse, hfilled, (normal_form_of_parse hparse).2.1 hfilled⟩

end DocSelect
