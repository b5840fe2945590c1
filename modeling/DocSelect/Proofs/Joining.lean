import DocSelect.Proofs.Joining.Site
import Mathlib

/-!
# Selectors put together

Where selectors that are one statement each are joined at a site that takes several, the whole is a
selector, made of the trees that they have on their own. A separator too many is what the parser
refuses it for.
-/
namespace DocSelect

open DocSelect.Parser

def TooDeep (s : String) : Prop := ∃ position, parse s = .error (.tooDeep maxDepth position)

variable {s : String} {c : Cursor} {expected : Except ParseError Expr} {Q : Cursor → Prop}

theorem parse_eq_of_reads (h : Lexer.Reads 0 s.toList c.toList) :
    parse s = (selector.exec c).1 := by
  have htokens := tokenize_of_reads h
  have hstart : Cursor.ofTokens c.toList = c := Cursor.eq_of_toList (Cursor.of_tokenize htokens).1
  unfold parse
  rw [htokens]
  show (selector.exec (Cursor.ofTokens c.toList)).1 = _
  rw [hstart]

theorem parse_of_reads (h : Lexer.Reads 0 s.toList c.toList)
    (hgives : selector.Gives c expected Q) : parse s = expected ∨ TooDeep s := by
  unfold TooDeep
  unfold Gives at hgives
  rw [parse_eq_of_reads h]
  rcases hrun : selector.exec c with ⟨e | r, c'⟩ <;> rw [hrun] at hgives
  · rcases hgives with h | ⟨position, h⟩
    · exact .inl h.symm
    · exact .inr ⟨position, congrArg _ h⟩
  · exact .inl hgives.1.symm

section

variable (site : Site) {items before after : List (String × Expr)} (trailing : Bool)

theorem Site.parse_trees (hne : items ≠ []) (hitems : ∀ x ∈ items, Statement x.1 x.2) :
    let whole := site.opening ++
      joined site.enclosure.separator.text trailing (items.map Prod.fst) ++ site.closing
    parse whole = .ok (site.tree (items.map Prod.snd)) ∨ TooDeep whole := by
  intro whole
  let inner := joined site.enclosure.separator.text trailing (items.map Prod.fst)
  obtain ⟨d, hclosing, hk, hholds⟩ := site.holds (site.opening.length + inner.length)
  obtain ⟨c, hc, hstart⟩ :=
    Enclosure.Reads.joined trailing hne hitems site.parted_closing hk hclosing
  obtain ⟨c₀, hreads, hgives⟩ := hholds _ c _ hc hstart (by simpa using hne)
  refine parse_of_reads ?_ hgives
  rw [String.toList_append, String.toList_append, List.append_assoc]
  exact hreads

theorem Site.parse_misplaced (hbefore : ∀ x ∈ before, Statement x.1 x.2)
    (hafter : ∀ x ∈ after, Statement x.1 x.2) :
    let separator := site.enclosure.separator
    let start := site.opening ++ followed separator.text (before.map Prod.fst)
    let rest := if after = [] then "" else joined separator.text trailing (after.map Prod.fst)
    let whole := start ++ separator.text ++ rest ++ site.closing
    parse whole = .error (.unexpected ⟨separator, separator.text, start.length, 1⟩) ∨
    TooDeep whole := by
  intro separator start rest whole
  have hlength : start.length = site.opening.length +
      (followed separator.text (before.map Prod.fst)).length :=
    String.length_append _ _
  obtain ⟨d, hclosing, hk, hholds⟩ := site.holds (start.length + 1 + rest.length)
  have hrest : ∃ c₁ :
      Cursor, Lexer.Reads (start.length + 1) (rest.toList ++ site.closing.toList) c₁.toList := by
    by_cases hnil : after = []
    · have heq : rest = "" := if_pos hnil
      rw [heq] at hclosing ⊢
      exact ⟨d, hclosing⟩
    · have heq : rest = joined separator.text trailing (after.map Prod.fst) := if_neg hnil
      rw [heq] at hclosing ⊢
      obtain ⟨c₁, hc₁, -⟩ :=
        Enclosure.Reads.joined trailing hnil hafter site.parted_closing hk hclosing
      exact ⟨c₁, hc₁.reads⟩
  obtain ⟨c₁, hc₁⟩ := hrest
  rw [hlength] at hc₁
  obtain ⟨c, hc, hstart⟩ := Enclosure.Reads.misplaced (d := d.advance) hbefore hc₁
  obtain ⟨c₀, hreads, hgives⟩ := hholds _ c _ hc hstart (by simp)
  rw [hlength]
  refine parse_of_reads ?_ hgives
  rw [String.toList_append, String.toList_append, String.toList_append, String.toList_append,
    List.append_assoc, List.append_assoc, List.append_assoc]
  exact hreads

end

/-- Joined statements are taken for their own trees at every site, with or without a separator
behind the last; a separator before all of them, or behind another one, is unexpected. -/
theorem parse_joined (site : Site) (items : List (String × Expr)) (hne : items ≠ [])
    (hitems : ∀ x ∈ items, Statement x.1 x.2) (trailing : Bool) :
    let separator := site.enclosure.separator
    let whole := site.opening ++ joined separator.text trailing (items.map Prod.fst) ++ site.closing
    (parse whole = .ok (site.tree (items.map Prod.snd)) ∨ TooDeep whole) ∧
      ∀ before after, before ++ after = items →
        let start := site.opening ++ followed separator.text (before.map Prod.fst)
        let rest := if after = [] then "" else joined separator.text trailing (after.map Prod.fst)
        let whole := start ++ separator.text ++ rest ++ site.closing
        parse whole = .error (.unexpected ⟨separator, separator.text, start.length, 1⟩) ∨
          TooDeep whole := by
  refine ⟨site.parse_trees trailing hne hitems, ?_⟩
  rintro before after rfl
  exact site.parse_misplaced trailing (fun x hx => hitems x (List.mem_append_left _ hx))
    fun x hx => hitems x (List.mem_append_right _ hx)

/-- Two arguments of a call, one of them with a semicolon in its brackets, and a comma too many. -/
theorem parse_joined_call :
    let items :=
      [("a", Expr.property "a"), ("(b; c)", .group (.chain [.property "b", .property "c"]))]
    items ≠ [] ∧ (∀ x ∈ items, Statement x.1 x.2) ∧
      (parse "f(a,(b; c),)" = .ok (.call "f" (items.map Prod.snd)) ∨ TooDeep "f(a,(b; c),)") ∧
      (parse "f(a,,(b; c),)" = .error (.unexpected ⟨.comma, ",", 4, 1⟩) ∨
        TooDeep "f(a,,(b; c),)") := by
  intro items
  have ha : Statement "a" (.property "a") := by
    refine ⟨by cbv, by decide, fun tokens h => ?_⟩
    have htokens : tokenize "a" = .ok [⟨.symbol, "a", 0, 1⟩, .atEnd 1] := by decide +kernel
    rw [htokens] at h
    cases h
    decide
  have hgroup : Statement "(b; c)" (.group (.chain [.property "b", .property "c"])) := by
    refine ⟨by cbv, by decide, fun tokens h => ?_⟩
    have htokens : tokenize "(b; c)" =
        .ok [⟨.openParen, "(", 0, 1⟩, ⟨.symbol, "b", 1, 1⟩, ⟨.semicolon, ";", 2, 1⟩,
        ⟨.symbol, "c", 4, 1⟩, ⟨.closeParen, ")", 5, 1⟩, .atEnd 6] := by decide +kernel
    rw [htokens] at h
    cases h
    decide
  have hitems : ∀ x ∈ items, Statement x.1 x.2 :=
    List.forall_mem_cons.2 ⟨ha,
      List.forall_mem_cons.2 ⟨hgroup, fun _ h => absurd h List.not_mem_nil⟩⟩
  have hne : items ≠ [] := List.cons_ne_nil _ _
  have h := parse_joined (.call "f" (by decide +kernel)) items hne hitems true
  refine ⟨hne, hitems, ?_, ?_⟩
  · exact h.1
  · exact h.2 [("a", .property "a")]
      [("(b; c)", .group (.chain [.property "b", .property "c"]))] rfl

end DocSelect
