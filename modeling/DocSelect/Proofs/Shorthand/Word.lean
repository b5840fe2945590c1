import DocSelect.Proofs.NormalForm

/-!
# Words that are properties

A selector whose tree is a property of the selector's own text is a single token: a bare word, or a
keyword that is no part of a conditional. Everything else that the parser takes begins with another
expression.
-/
namespace DocSelect

open DocSelect.Parser

-- ---------------------------------------------------------------------------
-- What a production makes
-- ---------------------------------------------------------------------------

def Expr.Begins (e : Expr) (name : String) : Prop := e.steps.head? = some (.property name)

namespace Parser

variable {α β : Type}

def Makes (x : Parser α) (P : α → Prop) : Prop := ∀ c r c', x.exec c = (.ok r, c') → P r

namespace Makes

variable {P : α → Prop} {Q : β → Prop}

theorem pure {r : α} (h : P r) : Makes (pure r) P := fun _ _ _ hx => by
  cases hx
  exact h

theorem throw (e : ParseError) : Makes (throw e : Parser α) P := fun _ _ _ hx => by cases hx

theorem unexpected : Makes (unexpected : Parser α) P := fun _ _ _ hx => by cases hx

theorem bind {x : Parser α} {f : α → Parser β} (h : ∀ a, Makes (f a) Q) :
    Makes (x >>= f) Q := fun _ r c' hx =>
  let ⟨a, c₁, _, hx⟩ := exec_bind_eq_ok_iff.1 hx
  h a c₁ r c' hx

end Makes

abbrev Nameless (x : Parser Expr) : Prop := x.Makes fun e => ∀ name, ¬ e.Begins name

theorem Nameless.not_begins {x : Parser Expr} {c c' : Cursor} {e : Expr} {name : String}
    (hx : x.Nameless) (h : x.exec c = (.ok e, c')) : ¬ e.Begins name := hx c e c' h name

variable {nested : Nested}

theorem nameless_group : (group nested).Nameless := .bind fun _ => .bind fun _ => .pure nofun

theorem nameless_array : (array nested).Nameless := .bind fun _ => .bind fun _ => .pure nofun

theorem nameless_object : (object nested).Nameless :=
  .bind fun _ => .bind fun _ => .bind fun _ => .pure nofun

theorem nameless_descent : descent.Nameless := by
  unfold descent
  refine .bind fun token => ?_
  split
  case h_5 =>
    refine .bind fun _ => .bind fun number => ?_
    split
    · exact .bind fun _ => .bind fun _ => .pure nofun
    · exact .throw _
    · exact .throw _
  case h_6 => exact .unexpected
  all_goals exact .bind fun _ => .pure nofun

theorem nameless_conditional (fuel : Nat) : (conditional nested fuel).Nameless := by
  cases fuel with
  | zero => exact .unexpected
  | succ fuel =>
    unfold conditional
    refine .bind fun _ => .bind fun _ => .bind fun _ => .bind fun _ => .bind fun k => ?_
    split
    · exact .bind fun _ => .pure nofun
    · exact .bind fun _ => .bind fun _ => .pure nofun
    · exact .pure nofun

theorem nameless_construct (word : Keyword) : (construct nested word).Nameless := by
  cases word with
  | ifThen => exact .bind fun _ => nameless_conditional _
  | branch => exact .bind fun _ => .bind fun _ => .pure nofun
  | map | filter | each | search => exact .bind fun _ => .pure nofun
  | sortBy =>
    exact .bind fun _ => .bind fun _ => .bind fun _ => .bind fun _ => .bind fun _ => .pure nofun
  | elseIf | elseThen | asc | desc => exact .unexpected

theorem numberLiteral_nameless {t : Token} {e : Expr} (h : numberLiteral t = .ok e)
    (name : String) : ¬ e.Begins name := by
  unfold numberLiteral at h
  dsimp only at h
  repeat' split at h
  all_goals cases h <;> nofun

end Parser

def TokenKind.Names (k : TokenKind) : Prop := k = .symbol ∨ isPropertyWord k = true

section

variable {nested : Nested} {c c' : Cursor} {e : Expr} {name : String}

theorem Parser.names_of_primary (h : (primary nested).exec c = (.ok e, c'))
    (hbegins : e.Begins name) : c.kind.Names ∧ c.current.value = name := by
  have hnameless {x : Parser Expr} (hx : x.Nameless) (h : x.exec c = (.ok e, c')) :
      c.kind.Names ∧ c.current.value = name := absurd hbegins (hx.not_begins h)
  have hvalue {value : String} (he : e = .property value) : value = name := by
    subst he
    exact Expr.property.inj (Option.some.inj hbegins)
  unfold primary at h
  obtain ⟨_, _, hlook, h⟩ := exec_bind_eq_ok_iff.1 h
  cases hlook
  obtain ⟨_, _, hlook, h⟩ := exec_bind_eq_ok_iff.1 h
  cases hlook
  split at h
  · rename_i hword
    cases h
    exact ⟨.inr hword.1, hvalue rfl⟩
  split at h
  case h_1 =>
    refine hnameless (.bind fun _ => ?_) h
    split
    · rename_i hnumber
      exact .pure (numberLiteral_nameless hnumber)
    · exact .throw _
  case h_7 hsymbol =>
    obtain ⟨_, _, hlook, h⟩ := exec_bind_eq_ok_iff.1 h
    cases hlook
    obtain ⟨_, _, hlook, h⟩ := exec_bind_eq_ok_iff.1 h
    cases hlook
    split at h
    · obtain ⟨_, _, -, h⟩ := exec_bind_eq_ok_iff.1 h
      cases h
      cases hbegins
    · cases h
      exact ⟨.inl hsymbol, hvalue rfl⟩
  case h_9 => exact hnameless (.bind fun _ => nameless_descent) h
  case h_10 => exact hnameless nameless_group h
  case h_11 => exact hnameless nameless_array h
  case h_12 => exact hnameless nameless_object h
  case h_13 => exact hnameless (nameless_construct _) h
  case h_14 => exact hnameless .unexpected h
  all_goals
    refine hnameless ?_ h
    exact .bind fun _ => .pure nofun

end

section

variable {levels : Nat} {scope : Scope} {power : BindingPower} {c c' : Cursor} {e : Expr}
  {name : String}

theorem Parser.names_of_chain (hc : c.Taken) (h : (chain (expression levels)).exec c = (.ok e, c'))
    (hbegins : e.Begins name) : c.kind.Names ∧ c.current.value = name := by
  unfold chain at h
  obtain ⟨first, c₁, hfirst, h⟩ := exec_bind_eq_ok_iff.1 h
  obtain ⟨_, _, hrounds, h⟩ := exec_bind_eq_ok_iff.1 h
  cases hrounds
  obtain ⟨further, c₂, hfurther, h⟩ := exec_bind_eq_ok_iff.1 h
  cases h
  obtain ⟨hc₁, hsingle⟩ := (forms_expression levels).primary hc first c₁ hfirst
  obtain ⟨-, hsingles⟩ := (forms_expression levels).furtherSteps _ hc₁ further c' hfurther
  refine names_of_primary hfirst ?_
  rw [Expr.Begins, Expr.steps_of_not_chain hsingle.not_chain]
  rwa [Expr.Begins, Expr.steps_chained] at hbegins
  exact List.forall_mem_cons.2 ⟨hsingle.not_chain, fun e he => (hsingles e he).not_chain⟩

theorem Expr.negated_nameless (e : Expr) (name : String) : ¬ (negated e).Begins name := by
  unfold negated
  split <;> nofun

theorem Parser.names_of_operand (hc : c.Taken)
    (h : (operand (expression levels) scope).exec c = (.ok e, c')) (hbegins : e.Begins name) :
    c.kind.Names ∧ c.current.value = name := by
  unfold operand at h
  obtain ⟨_, _, hlook, h⟩ := exec_bind_eq_ok_iff.1 h
  cases hlook
  split at h
  · refine absurd hbegins (Nameless.not_begins ?_ h)
    exact .bind fun _ => .bind fun _ => .pure nofun
  · refine absurd hbegins (Nameless.not_begins ?_ h)
    exact .bind fun _ => .bind fun e => .pure e.negated_nameless
  · exact names_of_chain hc h hbegins

theorem Parser.nameless_fold {nested : Nested} (left : Expr) (p : BindingPower) :
    (fold nested scope left p).Nameless := by
  unfold fold
  refine .bind fun token => .bind fun _ => ?_
  split
  · exact .bind fun _ => .pure nofun
  · exact .bind fun _ => .pure nofun
  · exact .bind fun _ => .pure nofun
  · split
    · exact .bind fun _ => .pure nofun
    · exact .throw _

theorem Parser.left_of_folds {nested : Nested} {left : Expr}
    (h : (folds nested scope power levels left).exec c = (.ok e, c')) (hbegins : e.Begins name) :
    e = left := by
  induction levels generalizing left c with
  | zero =>
    unfold folds at h
    obtain ⟨_, _, hlook, h⟩ := exec_bind_eq_ok_iff.1 h
    cases hlook
    split at h
    · split at h <;> cases h
      rfl
    · cases h
      rfl
  | succ levels ih =>
    unfold folds at h
    obtain ⟨_, _, hlook, h⟩ := exec_bind_eq_ok_iff.1 h
    cases hlook
    split at h
    · split at h
      · obtain ⟨left', c₁, hfold, h⟩ := exec_bind_eq_ok_iff.1 h
        obtain rfl := ih h
        exact absurd hbegins ((nameless_fold left _).not_begins hfold)
      · cases h
        rfl
    · cases h
      rfl

theorem Parser.names_of_expression (hc : c.Taken)
    (h : (expression levels scope power).exec c = (.ok e, c')) (hbegins : e.Begins name) :
    c.kind.Names ∧ c.current.value = name := by
  cases levels with
  | zero => cases h
  | succ levels =>
    obtain ⟨left, c₁, hoperand, h⟩ := exec_bind_eq_ok_iff.1 h
    obtain ⟨whole, c₂, hfolds, h⟩ := exec_bind_eq_ok_iff.1 h
    obtain ⟨_, _, -, h⟩ := exec_bind_eq_ok_iff.1 h
    cases h
    obtain rfl := left_of_folds hfolds hbegins
    exact names_of_operand hc hoperand hbegins

theorem Parser.names_of_selector (hc : c.Taken) (h : selector.exec c = (.ok (.property name), c')) :
    c.kind.Names ∧ c.current.value = name := by
  obtain ⟨es, _, hsequence, hpure⟩ := exec_bind_eq_ok_iff.1 h
  have hchained : Expr.chained es = .property name := Except.ok.inj (congrArg Prod.fst hpure)
  have hflat : es.flatMap Expr.steps = [.property name] := by
    unfold Expr.chained at hchained
    split at hchained
    · rename_i hone
      rw [hone, hchained]
    · cases hchained
  obtain ⟨-, htidy, -⟩ := (forms_expression maxDepth).sequence _ _ _ hc es _ hsequence
  obtain ⟨_, _, hrounds, hloop⟩ := exec_bind_eq_ok_iff.1 hsequence
  cases hrounds
  unfold sequenceLoop at hloop
  obtain ⟨_, _, hlook, hloop⟩ := exec_bind_eq_ok_iff.1 hloop
  cases hlook
  split at hloop
  · cases hloop
    cases hflat
  split at hloop
  · cases hloop
  obtain ⟨e, c₁, hfirst, hloop⟩ := exec_bind_eq_ok_iff.1 hloop
  obtain ⟨es', c₂, -, hpure⟩ := exec_bind_eq_ok_iff.1 hloop
  cases hpure
  refine names_of_expression hc hfirst ?_
  have hne := (htidy e List.mem_cons_self).steps_ne_nil
  rw [List.flatMap_cons] at hflat
  rw [Expr.Begins, ← List.head?_append_of_ne_nil _ hne, hflat]
  rfl

end

-- ---------------------------------------------------------------------------
-- The tokens of a word
-- ---------------------------------------------------------------------------

def wordKind (word : String) : TokenKind :=
  match Keyword.ofText? word with
  | some keyword => .keyword keyword
  | none => .symbol

theorem wordKind_eq_symbol_iff {word : String} :
    wordKind word = .symbol ↔ Keyword.ofText? word = none := by
  unfold wordKind
  split <;> simp [*]

theorem Scan.punctuation_names {c : Char} {cs : List Char} {kind : TokenKind} {value : String}
    {width : Nat} (h : punctuation c cs = lexeme kind value width) : ¬ kind.Names := by
  unfold punctuation at h
  split at h
  · rename_i k hfind
    obtain ⟨rfl, -⟩ := Scan.lexeme.inj h
    have hall : ∀ k ∈ TokenKind.punctuation, k ≠ .symbol ∧
        isPropertyWord k = false := by decide
    obtain ⟨hsymbol, hword⟩ := hall k (List.mem_of_find?_eq_some hfind)
    rintro (hk | hk)
    · exact hsymbol hk
    · exact Bool.false_ne_true (hword.symm.trans hk)
  · cases h

theorem Scan.word_names {text value : String} {kind : TokenKind} {n width : Nat}
    (h : word text n = lexeme kind value width) (hk : kind.Names) :
    value = text ∧ kind = wordKind text := by
  unfold word at h
  dsimp only at h
  split at h
  · cases h
    rcases hk with hk | hk <;> cases hk
  split at h
  · cases h
    rcases hk with hk | hk <;> cases hk
  rcases hword : Keyword.ofText? text with _ | k <;> rw [hword] at h <;> cases h
  · exact ⟨rfl, by rw [wordKind, hword]⟩
  · exact ⟨rfl, by rw [wordKind, hword]⟩

theorem Scan.of_names {cs : List Char} {kind : TokenKind} {value : String} {width : Nat}
    (h : of cs = lexeme kind value width) (hk : kind.Names) :
    value = String.ofList (cs.take width) ∧ kind = wordKind value := by
  have hplain : ∀ k ∈ [TokenKind.eof, .var, .string, .regex, .number], ¬ k.Names := by
    simp [TokenKind.Names, isPropertyWord]
  cases cs with
  | nil =>
    cases h
    exact absurd hk (hplain _ (by decide))
  | cons c cs =>
    rw [of.eq_def] at h
    dsimp only at h
    split at h
    · cases h
      exact absurd hk (hplain _ (by decide))
    split at h
    · split at h <;> cases h
      exact absurd hk (hplain _ (by decide))
    split at h
    · split at h <;> cases h
      exact absurd hk (hplain _ (by decide))
    split at h
    · cases h
      exact absurd hk (hplain _ (by decide))
    split at h
    · obtain ⟨rfl, hkind⟩ := word_names h hk
      rw [width_of_word h, take_of_begins (List.takeWhile_prefix _)]
      exact ⟨rfl, hkind⟩
    · exact absurd hk (punctuation_names h)

structure PropertyWord (word : String) : Prop where
  tokens : tokenize word = .ok [⟨wordKind word, word, 0, word.length⟩, .atEnd word.length]
  names : (wordKind word).Names

theorem propertyWord_of_parse {word : String} (h : parse word = .ok (.property word)) :
    PropertyWord word := by
  unfold parse at h
  rcases htokens : tokenize word with err | tokens <;> rw [htokens] at h
  · cases h
  rcases hrun : selector.exec (Cursor.ofTokens tokens) with ⟨result, c⟩
  obtain rfl : result = .ok (.property word) := (congrArg Prod.fst hrun).symm.trans h
  obtain ⟨hlist, -⟩ := Cursor.of_tokenize htokens
  obtain ⟨hnames, hvalue⟩ :=
    names_of_selector (Cursor.taken_of_tokenize htokens fun t ht => hlist ▸ ht) hrun
  obtain ⟨token, htoken⟩ : ∃ token, (Cursor.ofTokens tokens).current = token := ⟨_, rfl⟩
  have hmem : token ∈ tokens := by
    rw [← hlist, ← htoken]
    exact List.mem_cons_self
  rw [Cursor.kind, htoken] at hnames
  rw [htoken] at hvalue
  have hkind : token.kind ≠ .eof := by
    intro heof
    rw [heof] at hnames
    rcases hnames with hk | hk <;> cases hk
  have hlexeme := (lexed_of_tokenize htokens).lexeme_covered token hmem hkind
  have hscan := hlexeme.scan .nil
  rw [List.append_nil] at hscan
  obtain ⟨htext, hword⟩ := Scan.of_names hscan hnames
  rw [List.take_length, hvalue] at htext
  have hlength := congrArg String.length htext
  rw [String.length_ofList] at hlength
  have htokenize := hlexeme.tokenize
  rw [← htext, ← hlength, hvalue, hword, hvalue] at htokenize
  exact ⟨htokenize, by rwa [hword, hvalue] at hnames⟩

end DocSelect
