import DocSelect.Eval.Select
import DocSelect.Proofs.Brackets
import DocSelect.Proofs.Joining.Expression
import DocSelect.Proofs.Joining.Text

/-!
# Statements

A text that is one statement is one expression up to its end. Where it stands in front of a token
that may end an expression in the scope around it, the parser takes it up to there, and its tree is
the same.
-/
namespace DocSelect

open DocSelect.Parser

def Undivided (kinds : List TokenKind) : Prop :=
  ∀ i (h : i < kinds.length), kinds[i] = .semicolon → ¬ Matched (kinds.take i)

instance : DecidablePred Undivided := fun kinds => Nat.decidableBallLT kinds.length _

structure Statement (text : String) (tree : Expr) : Prop where
  parsed : parse text = .ok tree
  filled : isBlankText text = false
  undivided : ∀ tokens, tokenize text = .ok tokens → Undivided (tokens.map Token.kind)

-- ---------------------------------------------------------------------------
-- Where an expression begins and ends
-- ---------------------------------------------------------------------------

section

variable {c c' : Cursor} {e : Expr} {nested : Nested} {scope : Scope} {power : BindingPower}

theorem Parser.exec_expression_of_ends (h : c.kind.Ends) (levels : Nat) :
    (expression levels scope power).exec c ≠ (.ok e, c') := by
  intro hx
  cases levels with
  | zero => cases hx
  | succ levels =>
    have hchain : (chain (expression levels)).exec c = (.error (.unexpected c.current), c) := by
      unfold chain primary
      rcases h.cases with h | h | h | h | h | h | h <;>
      · rw [Cursor.kind] at h
        simp only [exec_bind, exec_current, exec_nextKind, h, isPropertyWord,
          Bool.false_eq_true, false_and, if_false]
        rfl
    obtain ⟨_, _, hoperand, -⟩ := exec_bind_eq_ok_iff.1 hx
    unfold operand at hoperand
    obtain ⟨_, _, hlook, hoperand⟩ := exec_bind_eq_ok_iff.1 hoperand
    cases hlook
    rcases h.cases with h | h | h | h | h | h | h <;>
    · rw [h] at hoperand
      cases hchain.symm.trans hoperand

/-- A round of the loop over infix tokens is the last one, or the loop goes on from some place. -/
theorem Parser.exec_folds_cases {levels : Nat} {left : Expr}
    (h : (folds nested scope power levels left).exec c = (.ok e, c')) :
    (∀ p ∈ BindingPower.ofToken? c'.kind, ¬ power < p) ∨
      ∃ levels' left' c₁, levels = levels' + 1 ∧
        (folds nested scope power levels' left').exec c₁ = (.ok e, c') := by
  by_cases hstop : ∀ p ∈ BindingPower.ofToken? c.kind, ¬ power < p
  · rw [exec_folds_of_not_lt hstop] at h
    cases h
    exact .inl hstop
  · obtain ⟨p, hp, hlt⟩ : ∃ p ∈ BindingPower.ofToken? c.kind, power < p := by
      simpa using hstop
    unfold folds at h
    simp only [exec_bind, exec_kind, Option.mem_def.1 hp, if_pos hlt] at h
    cases levels with
    | zero => cases h
    | succ levels =>
      obtain ⟨left', c₁, -, h⟩ := exec_bind_eq_ok_iff.1 h
      exact .inr ⟨levels, left', c₁, rfl, h⟩

theorem Parser.not_lt_of_exec_folds {levels : Nat} {left : Expr}
    (h : (folds nested scope power levels left).exec c = (.ok e, c')) :
    ∀ p ∈ BindingPower.ofToken? c'.kind, ¬ power < p := by
  induction levels generalizing c left with
  | zero => exact (exec_folds_cases h).resolve_right nofun
  | succ levels ih =>
    rcases exec_folds_cases h with hstop | ⟨levels', left', c₁, ⟨⟩, h⟩
    · exact hstop
    · exact ih h

theorem Parser.terminator_of_exec_expression {levels : Nat}
    (h : (expression levels scope .default).exec c = (.ok e, c')) :
    c'.kind ∈ scope.terminators := by
  cases levels with
  | zero => cases h
  | succ levels =>
    obtain ⟨_, _, -, h⟩ := exec_bind_eq_ok_iff.1 h
    obtain ⟨_, c₂, hfolds, h⟩ := exec_bind_eq_ok_iff.1 h
    obtain ⟨_, _, hexpect, h⟩ := exec_bind_eq_ok_iff.1 h
    cases h
    obtain rfl := cursor_of_expectEnd hexpect
    obtain ⟨_, _, hlook, hexpect⟩ := exec_bind_eq_ok_iff.1 hexpect
    cases hlook
    split at hexpect
    · rename_i hend
      refine hend.resolve_right fun hinfix => ?_
      obtain ⟨p, hp⟩ := Option.isSome_iff_exists.1 hinfix
      exact not_lt_of_exec_folds hfolds p hp (Infix.default_lt ⟨c'.current, p, hp⟩)
    · cases hexpect

end

-- ---------------------------------------------------------------------------
-- A statement on its own
-- ---------------------------------------------------------------------------

theorem isBlankText_of_eof {s : String} {tokens : List Token} (h : tokenize s = .ok tokens)
    (heof : (Cursor.ofTokens tokens).kind = .eof) : isBlankText s = true := by
  obtain ⟨hlist, honce⟩ := Cursor.of_tokenize h
  refine List.all_eq_true.2 fun c hc => ?_
  obtain ⟨i, hi⟩ := List.mem_iff_getElem?.1 hc
  refine (covers_of_tokenize h).outside hi fun t ht hin => ?_
  rw [← hlist, Cursor.toList, honce.rest_eq_nil heof, List.mem_singleton] at ht
  have hlast := (covers_of_tokenize h).last
  rw [← hlist, Cursor.toList, honce.rest_eq_nil heof, ← ht] at hlast
  obtain rfl := Option.some.inj hlast
  exact absurd hin.2 (Nat.not_lt_of_le hin.1)

namespace Statement

variable {text : String} {tree : Expr}

theorem exec_sequenceLoop_end {c c' : Cursor} {es : List Expr} {nested : Nested} {fuel : Nat}
    {filled : Bool} (hk : c.kind = .eof)
    (h : (sequenceLoop nested .root .eof .semicolon fuel filled).exec c = (.ok es, c')) :
    es = [] := by
  cases fuel with
  | zero => cases h
  | succ fuel =>
    unfold sequenceLoop at h
    rw [exec_bind, exec_kind] at h
    simp only [hk, if_true] at h
    cases h
    rfl

theorem exec (h : Statement text tree) : ∃ tokens c', tokenize text = .ok tokens ∧
    (expression maxDepth .root .default).exec (Cursor.ofTokens tokens) = (.ok tree, c') ∧
    c'.kind = .eof := by
  obtain ⟨hparse, hfilled, hundivided⟩ := h
  unfold parse at hparse
  rcases htokens : tokenize text with err | tokens <;> rw [htokens] at hparse
  · cases hparse
  obtain ⟨hlist, honce⟩ := Cursor.of_tokenize htokens
  rcases hrun : selector.exec (Cursor.ofTokens tokens) with ⟨result, c⟩
  obtain rfl : result = .ok tree := (congrArg Prod.fst hrun).symm.trans hparse
  obtain ⟨es, _, hloop, hpure⟩ := exec_bind_eq_ok_iff.1 hrun
  cases hpure
  obtain ⟨_, _, hrounds, hloop⟩ := exec_bind_eq_ok_iff.1 hloop
  cases hrounds
  obtain ⟨_, _, hlook, hloop⟩ := exec_bind_eq_ok_iff.1 hloop
  cases hlook
  split at hloop
  · rename_i heof
    cases hfilled.symm.trans (isBlankText_of_eof htokens heof)
  split at hloop
  · cases hloop
  obtain ⟨e, c₁, hfirst, hloop⟩ := exec_bind_eq_ok_iff.1 hloop
  obtain ⟨es', _, hrest, hpure⟩ := exec_bind_eq_ok_iff.1 hloop
  cases hpure
  have hends := terminator_of_exec_expression hfirst
  obtain ⟨-, taken, htaken, hpending⟩ :=
    expression_balanced maxDepth .root .default _ [] honce.ended _ _ hfirst
  have hsemicolon : c₁.kind ≠ .semicolon := by
    intro hk
    have hkinds : tokens.map Token.kind = taken.map Token.kind ++
        .semicolon :: c₁.rest.map Token.kind := by
      rw [← hlist, htaken, Cursor.toList, List.map_append, List.map_cons,
        show c₁.current.kind = _ from hk]
    refine hundivided tokens htokens (taken.map Token.kind).length ?_ ?_ ?_
    · simp [hkinds]
    · simp [hkinds]
    · rw [hkinds, List.take_left]
      exact matched_iff.2 hpending
  have heof : c₁.kind = .eof := by simpa [Scope.terminators, hsemicolon] using hends
  obtain rfl := exec_sequenceLoop_end heof hrest
  have hself : Expr.chained [e] = e := by
    have hmirrored := expression_mirroredIn (d := ⟨.atEnd 0, []⟩)
      ⟨.root, by decide⟩ maxDepth maxDepth .root .root
      .default (Cursor.ofTokens tokens) (.inr ⟨rfl, by decide⟩)
    exact (hmirrored honce e c₁ hfirst fun h => hsemicolon h.2).2.2.1.2.2
  exact ⟨tokens, c₁, rfl, hself.symm ▸ hfirst, heof⟩

end Statement

-- ---------------------------------------------------------------------------
-- A statement in front of something else
-- ---------------------------------------------------------------------------

def Cursor.leading (d : Cursor) : List Token → Cursor
  | [] => d
  | t :: ts => ⟨t, ts ++ d.toList⟩

@[simp] theorem Cursor.toList_leading (d : Cursor) (ts : List Token) :
    (d.leading ts).toList = ts ++ d.toList := by
  cases ts <;> rfl

theorem Cursor.eq_of_toList {c c' : Cursor} (h : c.toList = c'.toList) : c = c' := by
  obtain ⟨t, ts⟩ := c
  obtain ⟨hcurrent, hrest⟩ := List.cons.inj h
  cases hcurrent
  cases hrest
  rfl

theorem Beside.leading {d stop : Cursor} (hstop : stop.rest = []) (hkind : stop.kind = .eof)
    (p : Nat) {ts : List Token} (h : ∀ t ∈ ts, t.kind ≠ .eof) :
    Beside d (stop.leading ts) (d.leading (ts.map (·.moved p))) := by
  induction ts with
  | nil =>
    obtain ⟨t, rest⟩ := stop
    cases hstop
    exact .stop hkind
  | cons t ts ih =>
    obtain ⟨ht, hts⟩ := List.forall_mem_cons.1 h
    have htoken := Beside.token (u := t.moved p) ht rfl rfl (ih hts)
    rwa [Cursor.toList_leading, Cursor.toList_leading] at htoken

/-- A place from which an expression is taken that ends at another one, in every scope where it may
end there, and however deep it is nested. -/
structure Cursor.Leads (c : Cursor) (tree : Expr) (d : Cursor) : Prop where
  starts : ¬ c.kind.Ends
  length_lt : d.rest.length < c.rest.length
  gives (levels : Nat) {scope : Scope} : d.kind ∈ scope.terminators →
    (expression levels scope .default).Gives c (.ok tree) (· = d)

/-- In front of a token that may end it a statement has the tree that it has on its own. -/
theorem Statement.reads {text : String} {tree : Expr} (h : Statement text tree) {p : Nat}
    {rest : List Char} {d : Cursor} (hrest : Parted rest)
    (hd : Lexer.Reads (p + text.length) rest d.toList) :
    ∃ c : Cursor, Lexer.Reads p (text.toList ++ rest) c.toList ∧ c.Leads tree d := by
  obtain ⟨tokens, c', htokens, hrun, heof⟩ := h.exec
  have hcovers := covers_of_tokenize htokens
  obtain ⟨hlist, honce⟩ := Cursor.of_tokenize htokens
  have hstart : Cursor.ofTokens tokens =
      Cursor.leading ⟨.atEnd text.length, []⟩ tokens.dropLast := by
    refine Cursor.eq_of_toList ?_
    rw [hlist, Cursor.toList_leading]
    obtain ⟨lexemes, hlexemes⟩ := List.getLast?_eq_some_iff.1 hcovers.last
    rw [hlexemes, List.dropLast_concat]
    rfl
  have hreads := Lexer.Reads.text htokens hrest hd
  rw [← Cursor.toList_leading] at hreads
  have hbeside :
      Beside d (Cursor.ofTokens tokens) (d.leading (tokens.dropLast.map (·.moved p))) := by
    rw [hstart]
    exact .leading rfl rfl p fun t ht => (hcovers.lexemes t ht).1
  have hstarts : ¬ (Cursor.ofTokens tokens).kind.Ends :=
    fun hends => exec_expression_of_ends hends _ hrun
  rcases hlexemes : tokens.dropLast with _ | ⟨t, ts⟩ <;>
    rw [hlexemes] at hstart hreads hbeside <;>
    rw [hstart] at hstarts
  · -- an expression takes a token
    exact absurd ⟨.root, List.mem_cons_self⟩ hstarts
  refine ⟨_, hreads, hstarts, ?_, fun levels scope hmem => ?_⟩
  · simp only [Cursor.leading, List.map_cons, Cursor.toList, List.length_append, List.length_cons]
    omega
  have hmirrored := expression_mirroredIn (d := d)
    ⟨scope, hmem⟩ maxDepth levels .root scope .default
    (Cursor.ofTokens tokens) (.inr ⟨rfl, hmem⟩)
  obtain ⟨-, -, -, hgives⟩ :=
    hmirrored honce tree c' hrun fun h => by rw [h.2] at heof; cases heof
  exact (hgives _ hbeside).mono fun c hc => hc.eq_of_eof heof

end DocSelect
