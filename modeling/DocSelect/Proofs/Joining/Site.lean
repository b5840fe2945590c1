import DocSelect.Proofs.Joining.Sequence

/-!
# Where statements stand

Statements stand in a whole selector, between the brackets of a call, a branch, an array, a group or
a construct over a collection, and in the condition and the alternatives of a conditional. Each of
these sites has a text before them and one behind them, and makes one tree of theirs.
-/
namespace DocSelect

open DocSelect.Parser

structure Series where
  items : List (String × Expr)
  trailing : Bool
  ne : items ≠ []
  statements : ∀ x ∈ items, Statement x.1 x.2

namespace Series

def text (series : Series) (separator : TokenKind) : String :=
  joined separator.text series.trailing (series.items.map Prod.fst)

def trees (series : Series) : List Expr := series.items.map Prod.snd

end Series

inductive Site where
  | program
  | call (name : String)
    (h : tokenize name = .ok [⟨.symbol, name, 0, name.length⟩, .atEnd name.length])
  | branch
  | array
  | group
  | map
  | filter
  | each
  | search
  /-- the condition of a conditional with this body -/
  | condition (consequence : Series)
  /-- the body of a conditional with this condition -/
  | body (premise : Series)
  | alternative (premise consequence : Series)

namespace Site

def opening : Site → String
  | program => ""
  | call name _ => name ++ "("
  | branch => "branch("
  | array => "["
  | group => "("
  | map => "map("
  | filter => "filter("
  | each => "each("
  | search => "search("
  | condition _ => "if ("
  | body premise => "if (" ++ premise.text .semicolon ++ ") \x7b"
  | alternative premise consequence =>
    "if (" ++ premise.text .semicolon ++ ") \x7b" ++ consequence.text .semicolon ++ "\x7d else \x7b"

def closing : Site → String
  | program => ""
  | array => "]"
  | condition consequence => ") \x7b" ++ consequence.text .semicolon ++ "\x7d"
  | body _ | alternative _ _ => "\x7d"
  | call _ _ | branch | group | map | filter | each | search => ")"

def enclosure : Site → Enclosure
  | program => .program
  | array => .array
  | group | condition _ => .group
  | body _ | alternative _ _ => .body
  | call _ _ | branch | map | filter | each | search => .arguments

def tree : Site → List Expr → Expr
  | program, es => .chained es
  | call name _, es => .call name es
  | branch, es => .branch es
  | array, es => .array es
  | group, es => .group (.chained es)
  | map, es => .map (.chained es)
  | filter, es => .filter (.chained es)
  | each, es => .each (.chained es)
  | search, es => .search (.chained es)
  | condition consequence, es => .conditional (.chained es) (.chained consequence.trees) none
  | body premise, es => .conditional (.chained premise.trees) (.chained es) none
  | alternative premise consequence, es =>
    .conditional (.chained premise.trees) (.chained consequence.trees) (some (.chained es))

end Site

-- ---------------------------------------------------------------------------
-- From a production to the whole selector
-- ---------------------------------------------------------------------------

section

variable {c : Cursor} {expected : Except ParseError Expr} {levels : Nat}

theorem Parser.Gives.expression (hnot : c.kind ≠ .not) (hminus : c.kind ≠ .minus)
    (hsteps : ∀ e, expected = .ok e → e.steps = [e])
    (h : (primary (expression levels)).Gives c expected (·.kind = .eof)) :
    (expression (levels + 1) .root .default).Gives c expected (·.kind = .eof) := by
  have hchain : (chain (Parser.expression levels)).Gives c expected (·.kind = .eof) := by
    unfold chain
    refine h.bind_same fun e d he hd => ?_
    refine .bind_exec (exec_rounds d) (.bind_exec (exec_furtherSteps (.inl hd)) ?_)
    rw [Expr.chained_single (hsteps e he)]
    exact .pure hd
  have hoperand : (operand (Parser.expression levels) .root).Gives c expected (·.kind = .eof) := by
    unfold operand
    refine .bind_exec (exec_kind c) ?_
    split
    · contradiction
    · contradiction
    · exact hchain
  unfold Parser.expression
  refine hoperand.bind_same fun e d he hd =>
    .bind_exec (exec_folds_of_not_lt (fun p hp => ?_) levels e) ?_
  · rw [hd] at hp
    cases hp
  · exact .bind_exec (exec_expectEnd (.inl hd)) (.pure hd)

theorem Parser.Gives.selector (hstart : c.kind ∉ [TokenKind.eof, .semicolon, .not, .minus])
    (hrest : 0 < c.rest.length) (hsteps : ∀ e, expected = .ok e → e.steps = [e])
    (h : ∀ levels, (primary (Parser.expression levels)).Gives c expected (·.kind = .eof)) :
    Parser.selector.Gives c expected fun _ => True := by
  simp only [List.mem_cons, List.not_mem_nil, or_false, not_or] at hstart
  obtain ⟨heof, hsemicolon, hnot, hminus⟩ := hstart
  have hwhole : (Parser.expression maxDepth .root .default).Gives c expected (·.kind = .eof) :=
    .expression hnot hminus hsteps (h 127)
  obtain ⟨n, hn⟩ := Nat.exists_eq_add_one.2 hrest
  have hloop : (sequence (Parser.expression maxDepth) .root .eof .semicolon).Gives c
      (expected >>= fun e => .ok [e]) fun _ => True := by
    unfold sequence
    refine .bind_exec (exec_rounds c) ?_
    unfold sequenceLoop
    refine .bind_exec (exec_kind c) ?_
    rw [if_neg heof, if_neg hsemicolon, if_neg heof, hn]
    refine hwhole.bind fun e d he hd => ?_
    have hclose : (sequenceLoop (Parser.expression maxDepth) .root .eof .semicolon
        (n + 1) true).exec d = (.ok [], d.advance) := by
      unfold sequenceLoop
      rw [exec_bind, exec_kind]
      simp only [hd, if_true]
      rfl
    exact .bind_exec hclose (.pure trivial)
  unfold Parser.selector
  have hchained := hloop.map (f := Expr.chained)
  cases expected with
  | error e => exact hchained
  | ok e =>
    rwa [show Except.map Expr.chained (Except.ok e >>= fun e => .ok [e]) = .ok e from
      congrArg _ (Expr.chained_single (hsteps e rfl))] at hchained

end

-- ---------------------------------------------------------------------------
-- Productions around a sequence
-- ---------------------------------------------------------------------------

/-- A place at the first word of a conditional: its condition is taken, and then another place is
reached. -/
structure Cursor.Premise (c : Cursor) (expected : Except ParseError (List Expr)) (d : Cursor) :
    Prop where
  keyword : c.current.kind = .keyword .ifThen
  paren : c.advance.kind = .openParen
  start : c.advance.advance.kind ≠ .closeParen
  takes : Enclosure.group.Takes false c.advance.advance expected d

structure Cursor.Block (c : Cursor) (expected : Except ParseError (List Expr)) (d : Cursor) :
    Prop where
  brace : c.kind = .openBrace
  start : c.advance.kind ≠ .closeBrace
  takes : Enclosure.body.Takes false c.advance expected d

namespace Parser.Gives

variable {c d : Cursor} {levels : Nat} {expected : Except ParseError (List Expr)}

theorem sequence {w : Enclosure} (h : w.Takes false c expected d) :
    (Parser.sequence (Parser.expression levels) w.scope w.close w.separator).Gives c
      expected (· = d) := by
  unfold Parser.sequence
  exact .bind_exec (exec_rounds c) (h levels _ (Nat.lt_succ_self _))

theorem statements {w : Enclosure} (hw : w.separator = .semicolon) (hstart : c.kind ≠ w.close)
    (h : w.Takes false c expected d) :
    (Parser.statements (Parser.expression levels) w.scope w.close).Gives c
      (expected.map .chained) (· = d) := by
  unfold Parser.statements
  refine .bind_exec (exec_kind c) ?_
  rw [if_neg hstart, ← hw]
  exact (sequence h).map

theorem arguments (hk : c.kind = .openParen)
    (h : Enclosure.arguments.Takes false c.advance expected d) :
    (Parser.arguments (Parser.expression levels)).Gives c expected (· = d) := by
  unfold Parser.arguments
  exact .bind_exec (exec_expect hk) (sequence h)

theorem array (hk : c.kind = .openBracket) (h : Enclosure.array.Takes false c.advance expected d) :
    (Parser.array (Parser.expression levels)).Gives c (expected.map .array) (· = d) := by
  unfold Parser.array
  exact .bind_exec (exec_expect hk) (sequence h).map

theorem group (hk : c.kind = .openParen) (hstart : c.advance.kind ≠ .closeParen)
    (h : Enclosure.group.Takes false c.advance expected d) :
    (Parser.group (Parser.expression levels)).Gives c
      ((expected.map .chained).map .group) (· = d) := by
  unfold Parser.group
  exact .bind_exec (exec_expect hk) (statements (w := .group) rfl hstart h).map

theorem body (h : c.Block expected d) :
    (Parser.body (Parser.expression levels)).Gives c (expected.map .chained) (· = d) := by
  unfold Parser.body
  exact .bind_exec (exec_expect h.brace) (statements (w := .body) rfl h.start h.takes)

theorem collection (word : Keyword) (hk : c.advance.kind = .openParen) (hne : expected ≠ .ok [])
    (h : Enclosure.arguments.Takes false c.advance.advance expected d) :
    (Parser.collection (Parser.expression levels) word).Gives c
      (expected.map .chained) (· = d) := by
  unfold Parser.collection
  refine .bind_exec (exec_current c) (.bind_exec (exec_advance c) ?_)
  match expected, hne with
  | .error e, _ => exact (arguments hk h).bind (g := fun _ => .error e) fun _ _ hok => by cases hok
  | .ok (e :: es), _ =>
    refine (arguments hk h).bind_ok ?_
    rintro _ rfl
    exact .pure rfl

section

variable (levels) (fuel : Nat) {first second third : Except ParseError (List Expr)}
  {d₁ d₂ d₃ : Cursor} (hpremise : c.Premise first d₁)
  (hconsequence : d₁.Block second d₂)
include hpremise hconsequence

theorem conditional (hend : d₂.kind = .eof) :
    (Parser.conditional (Parser.expression levels) (fuel + 1)).Gives c
      (first.map .chained >>= fun p => second.map .chained >>= fun q => .ok (.conditional p q none))
      (·.kind = .eof) := by
  unfold Parser.conditional
  refine .bind_exec (exec_advance c) (.bind_exec (exec_expect hpremise.paren) ?_)
  refine (statements (w := .group) rfl hpremise.start hpremise.takes).bind ?_
  rintro p d₁ - rfl
  refine (body hconsequence).bind ?_
  rintro q d₂ - rfl
  refine .bind_exec (exec_kind d₂) ?_
  rw [hend]
  exact .pure hend

theorem conditional_alternative (helse : d₂.kind = .keyword .elseThen)
    (halternative : d₂.advance.Block third d₃) (hend : d₃.kind = .eof) :
    (Parser.conditional (Parser.expression levels) (fuel + 1)).Gives c
      (first.map .chained >>= fun p => second.map .chained >>= fun q =>
        third.map .chained >>= fun r =>
        .ok (.conditional p q (some r))) (·.kind = .eof) := by
  unfold Parser.conditional
  refine .bind_exec (exec_advance c) (.bind_exec (exec_expect hpremise.paren) ?_)
  refine (statements (w := .group) rfl hpremise.start hpremise.takes).bind ?_
  rintro p d₁ - rfl
  refine (body hconsequence).bind ?_
  rintro q d₂ - rfl
  refine .bind_exec (exec_kind d₂) ?_
  rw [helse]
  refine .bind_exec (exec_advance d₂) ((body halternative).bind ?_)
  rintro r d₃ - rfl
  exact .pure hend

end

theorem primary_of_keyword {word : Keyword} {nested : Nested} {expected : Except ParseError Expr}
    {Q : Cursor → Prop} (hk : c.current.kind = .keyword word)
    (hparen : c.advance.kind = .openParen) (h : (construct nested word).Gives c expected Q) :
    (primary nested).Gives c expected Q := by
  unfold primary
  refine .bind_exec (exec_current c) (.bind_exec (exec_nextKind c) ?_)
  rw [if_neg fun h => h.2 (by rw [← Cursor.kind_advance, hparen]), hk]
  exact h

end Parser.Gives

-- ---------------------------------------------------------------------------
-- Texts around statements
-- ---------------------------------------------------------------------------

namespace Lexer.Reads

variable {p : Nat} {rest : List Char} {ts : List Token}

theorem word {s : String} {k : TokenKind}
    (hword : tokenize s = .ok [⟨k, s, 0, s.length⟩, .atEnd s.length])
    (h : Reads (p + (s ++ "(").length) rest ts) :
    Reads p ((s ++ "(").toList ++ rest)
      (⟨k, s, p, s.length⟩ :: ⟨.openParen, "(", p + s.length, 1⟩ :: ts) := by
  rw [String.toList_append, List.append_assoc]
  rw [String.length_append, ← Nat.add_assoc] at h
  exact text hword (.cons rfl _) (mark (k := .openParen) (by decide) h)

theorem beforeCondition (h : Reads (p + 4) rest ts) :
    Reads p ("if (".toList ++ rest)
      (⟨.keyword .ifThen, "if", p, 2⟩ :: ⟨.openParen, "(", p + 3, 1⟩ :: ts) := by
  have hword : tokenize "if" = .ok [⟨.keyword .ifThen, "if", 0, 2⟩, .atEnd 2] := by
    decide +kernel
  exact text (p := p) hword (.cons rfl _) (space (mark (k := .openParen) (by decide) h))

theorem brace (p : Nat) : Reads p "\x7d".toList [⟨.closeBrace, "\x7d", p, 1⟩, .atEnd (p + 1)] :=
  mark (c := '\x7d') (by decide) (nil _)

theorem beforeBody (h : Reads (p + 3) rest ts) :
    Reads p (") \x7b".toList ++ rest)
      (⟨.closeParen, ")", p, 1⟩ :: ⟨.openBrace, "\x7b", p + 2, 1⟩ :: ts) :=
  mark (k := .closeParen) (by decide) (space (mark (k := .openBrace) (by decide) h))

theorem beforeAlternative (h : Reads (p + 8) rest ts) :
    Reads p ("\x7d else \x7b".toList ++ rest)
      (⟨.closeBrace, "\x7d", p, 1⟩ :: ⟨.keyword .elseThen, "else", p + 2, 4⟩ ::
        ⟨.openBrace, "\x7b", p + 7, 1⟩ :: ts) := by
  have hword : tokenize "else" = .ok [⟨.keyword .elseThen, "else", 0, 4⟩, .atEnd 4] := by
    decide +kernel
  refine mark (k := .closeBrace) (by decide) (space ?_)
  exact text (p := p + 2) hword (.cons rfl _) (space (mark (k := .openBrace) (by decide) h))

end Lexer.Reads

theorem Series.reads (series : Series) {w : Enclosure} {p : Nat} {rest : List Char} {d : Cursor}
    (hrest : Parted rest) (hk : d.kind = w.close)
    (hd : Lexer.Reads (p + (series.text w.separator).length) rest d.toList) :
    ∃ c, w.Reads p ((series.text w.separator).toList ++ rest) c (.ok series.trees) d.advance ∧
      c.kind ≠ w.close :=
  Enclosure.Reads.joined series.trailing series.ne series.statements hrest hk hd

namespace Site

/-- The text behind the statements closes the site, and what is taken for the statements in front of
it becomes the tree of the whole selector. -/
def Holds (site : Site) : Prop :=
  ∀ q, ∃ d : Cursor, Lexer.Reads q site.closing.toList d.toList ∧
    d.kind = site.enclosure.close ∧
    ∀ cs c expected, site.enclosure.Reads site.opening.length cs c expected d.advance →
      c.kind ≠ site.enclosure.close → expected ≠ .ok [] →
        ∃ c₀ : Cursor, Lexer.Reads 0 (site.opening.toList ++ cs) c₀.toList ∧
          selector.Gives c₀ (expected.map site.tree) fun _ => True

theorem parted_closing (site : Site) : Parted site.closing.toList := by
  cases site <;> rw [closing]
  case program => exact .nil
  case array => exact .cons (c := ']') rfl []
  case body | alternative => exact .cons (c := '\x7d') rfl []
  case condition =>
    rw [String.append_assoc, String.toList_append]
    exact .cons (c := ')') rfl _
  all_goals exact .cons (c := ')') rfl []

theorem holds_program : program.Holds := by
  intro q
  refine ⟨⟨.atEnd q, []⟩, .nil q, rfl, fun cs c expected h _ _ => ⟨c, h.reads, ?_⟩⟩
  unfold selector
  exact ((Parser.Gives.sequence h.takes).map).mono fun _ _ => trivial

section

variable {site : Site} {m : Char}

theorem holds_of_primary (hmark : (site.enclosure.close, m) ∈ Scan.marks)
    (hclosing : site.closing.toList = [m]) (hsteps : ∀ es, (site.tree es).steps = [site.tree es])
    (h : ∀ cs c expected d, site.enclosure.Reads site.opening.length cs c expected d →
      c.kind ≠ site.enclosure.close → expected ≠ .ok [] →
        ∃ t : Token, ∃ ts, Lexer.Reads 0 (site.opening.toList ++ cs) (t :: ts) ∧ ts ≠ [] ∧
          t.kind ∉ [TokenKind.eof, .semicolon, .not, .minus] ∧
          ∀ levels, (primary (expression levels)).Gives ⟨t, ts⟩
            (expected.map site.tree) (· = d)) :
    site.Holds := by
  intro q
  refine ⟨⟨⟨site.enclosure.close, site.enclosure.close.text, q, 1⟩, [.atEnd (q + 1)]⟩, ?_,
    rfl, ?_⟩
  · rw [hclosing]
    exact .mark hmark (.nil _)
  intro cs c expected hreads hstart hne
  obtain ⟨t, ts, hopening, hts, ht, hprimary⟩ := h cs c expected _ hreads hstart hne
  refine ⟨⟨t, ts⟩, hopening,
    .selector ht (List.length_pos_iff.2 hts) (fun e he => ?_) fun levels => ?_⟩
  · cases expected with
    | error => cases he
    | ok es =>
      cases he
      exact hsteps es
  · exact (hprimary levels).mono fun d hd => by rw [hd]; rfl

end

theorem holds_array : array.Holds := by
  have hmark : (TokenKind.closeBracket, ']') ∈ Scan.marks := by decide
  refine holds_of_primary hmark rfl (fun _ => rfl) fun cs c expected d hreads _ _ => ?_
  have hopening := Lexer.Reads.mark (p := 0) (k := .openBracket) (c := '[') (by decide) hreads.reads
  refine ⟨_, _, hopening, List.cons_ne_nil _ _, by decide, fun levels => ?_⟩
  unfold primary
  refine .bind_exec (exec_current _) (.bind_exec (exec_nextKind _) ?_)
  rw [if_neg (by simp [isPropertyWord])]
  exact .array rfl hreads.takes

theorem holds_group : group.Holds := by
  have hmark : (TokenKind.closeParen, ')') ∈ Scan.marks := by decide
  refine holds_of_primary hmark rfl (fun _ => rfl) fun cs c expected d hreads hstart _ => ?_
  have hopening := Lexer.Reads.mark (p := 0) (k := .openParen) (c := '(') (by decide) hreads.reads
  refine ⟨_, _, hopening, List.cons_ne_nil _ _, by decide, fun levels => ?_⟩
  unfold primary
  refine .bind_exec (exec_current _) (.bind_exec (exec_nextKind _) ?_)
  rw [if_neg (by simp [isPropertyWord])]
  have hgroup : (Parser.group (expression levels)).Gives ⟨⟨.openParen, "(", 0, 1⟩, c.toList⟩
      ((expected.map .chained).map .group) (· = d) := .group rfl hstart hreads.takes
  cases expected <;> exact hgroup

theorem holds_of_word {site : Site} {s : String} {k : TokenKind}
    (hword : tokenize s = .ok [⟨k, s, 0, s.length⟩, .atEnd s.length])
    (hk : k ∉ [TokenKind.eof, .semicolon, .not, .minus]) (hopening : site.opening = s ++ "(")
    (hclosing : site.closing = ")") (henclosure : site.enclosure = .arguments)
    (hsteps : ∀ es, (site.tree es).steps = [site.tree es])
    (h : ∀ levels c expected d, c.current = ⟨k, s, 0, s.length⟩ →
      c.advance.kind = .openParen →
      expected ≠ .ok [] → Enclosure.arguments.Takes false c.advance.advance expected d →
        (primary (expression levels)).Gives c (expected.map site.tree) (· = d)) : site.Holds := by
  refine holds_of_primary (m := ')') (by rw [henclosure]; decide) (by rw [hclosing]; rfl) hsteps
    fun cs c expected d hreads _ hne => ?_
  rw [hopening, henclosure] at hreads
  rw [hopening]
  have hopen := Lexer.Reads.word (p := 0) hword (by rw [Nat.zero_add]; exact hreads.reads)
  exact ⟨_, _, hopen, List.cons_ne_nil _ _, hk,
    fun levels => h levels _ expected d rfl rfl hne hreads.takes⟩

theorem holds_call (name : String)
    (h : tokenize name = .ok [⟨.symbol, name, 0, name.length⟩, .atEnd name.length]) :
    (call name h).Holds := by
  refine holds_of_word h (by decide) rfl rfl rfl (fun _ =>
    rfl) fun levels c expected d hc hparen _ htakes => ?_
  unfold primary
  refine .bind_exec (exec_current c) (.bind_exec (exec_nextKind c) ?_)
  rw [hc, if_neg (by simp [isPropertyWord])]
  refine .bind_exec (exec_advance c) (.bind_exec (exec_kind _) ?_)
  rw [if_pos hparen]
  exact (Parser.Gives.arguments hparen htakes).map

theorem tokenize_keyword (word : Keyword) : tokenize word.text =
    .ok [⟨.keyword word, word.text, 0, word.text.length⟩, .atEnd word.text.length] := by
  cases word <;> decide +kernel

theorem holds_branch : branch.Holds := by
  refine holds_of_word (tokenize_keyword .branch) (by decide) rfl rfl rfl (fun _ => rfl)
    fun levels c expected d hc hparen _ htakes => ?_
  refine .primary_of_keyword (congrArg Token.kind hc) hparen ?_
  exact .bind_exec (exec_advance c) (Parser.Gives.arguments hparen htakes).map

theorem holds_collection {site : Site} (word : Keyword) (build : Expr → Expr)
    (hconstruct : ∀ nested, construct nested word = do return build (← collection nested word))
    (hopening : site.opening = word.text ++ "(") (hclosing : site.closing = ")")
    (henclosure : site.enclosure = .arguments) (htree : ∀ es, site.tree es = build (.chained es))
    (hsteps : ∀ e, (build e).steps = [build e]) : site.Holds := by
  refine holds_of_word (tokenize_keyword word) (by simp) hopening hclosing henclosure
    (fun es => by rw [htree, hsteps]) fun levels c expected d hc hparen hne htakes => ?_
  refine .primary_of_keyword (congrArg Token.kind hc) hparen ?_
  rw [hconstruct]
  have hbuilt : (do return build (← collection (expression levels) word) : Parser Expr).Gives c
      ((expected.map .chained).map build) (· = d) :=
    (Parser.Gives.collection word hparen hne htakes).map
  cases expected with
  | error e => exact hbuilt
  | ok es => rwa [Except.map, htree]

section

variable {premise : Series} {rest : List Char} {c d : Cursor}

theorem reads_premise
    (h : Lexer.Reads ("if (" ++ premise.text .semicolon ++ ") \x7b").length rest c.toList) :
    ∃ c₀ d₁ : Cursor, Lexer.Reads 0
      (("if (" ++ premise.text .semicolon ++ ") \x7b").toList ++ rest) c₀.toList ∧
      c₀.Premise (.ok premise.trees) d₁ ∧ d₁.kind = .openBrace ∧ d₁.advance = c := by
  rw [String.length_append, String.length_append] at h
  have hbrace := Lexer.Reads.beforeBody h
  have hparted : Parted (") \x7b".toList ++ rest) := .cons (c := ')') rfl _
  obtain ⟨c₁, ⟨hreads, htakes⟩, hstart⟩ :=
    premise.reads (w := .group) (d := ⟨_, _⟩) hparted rfl hbrace
  have hopening := Lexer.Reads.beforeCondition (p := 0) hreads
  rw [String.toList_append, String.toList_append, List.append_assoc, List.append_assoc]
  exact ⟨⟨_, _⟩, _, hopening, ⟨rfl, rfl, hstart, htakes⟩, rfl, rfl⟩

theorem selector_of_premise {expected : Except ParseError Expr}
    {first : Except ParseError (List Expr)} {c₀ d₁ : Cursor}
    (hpremise : c₀.Premise first d₁) (hsteps : ∀ e, expected = .ok e → e.steps = [e])
    (h : ∀ levels fuel, (conditional (expression levels) (fuel + 1)).Gives c₀ expected
      (·.kind = .eof)) : selector.Gives c₀ expected fun _ => True := by
  have hk : c₀.kind = .keyword .ifThen := hpremise.keyword
  have hrest : 0 < c₀.rest.length := by
    refine List.length_pos_iff.2 fun hnil => ?_
    have hparen := hpremise.paren
    rw [Cursor.advance, hnil] at hparen
    exact absurd (hk.symm.trans hparen) (by decide)
  refine .selector (by rw [hk]; decide) hrest hsteps fun levels => ?_
  exact .primary_of_keyword hpremise.keyword hpremise.paren
    (.bind_exec (exec_rounds c₀) (h levels _))

theorem holds_body (premise : Series) : (body premise).Holds := by
  intro q
  refine ⟨⟨_, [.atEnd (q + 1)]⟩, .brace q, rfl, fun cs c expected hc hstart _ => ?_⟩
  obtain ⟨c₀, d₁, hopening, hpremise, hbrace, rfl⟩ := reads_premise hc.reads
  refine ⟨c₀, hopening, selector_of_premise hpremise (fun e he => ?_) fun levels fuel => ?_⟩
  · cases expected <;> cases he
    rfl
  · have hconditional :=
      Parser.Gives.conditional levels fuel hpremise ⟨hbrace, hstart, hc.takes⟩ rfl
    cases expected <;> exact hconditional

theorem holds_condition (consequence : Series) : (condition consequence).Holds := by
  intro q
  have hbrace := Lexer.Reads.brace (q + 3 + (consequence.text .semicolon).length)
  have hparted : Parted ['\x7d'] := .cons rfl []
  obtain ⟨c₂, hc₂, hstart₂⟩ :=
    consequence.reads (w := .body) (d := ⟨_, [_]⟩) hparted rfl hbrace
  have hclosing := Lexer.Reads.beforeBody hc₂.reads
  refine ⟨⟨⟨.closeParen, ")", q, 1⟩,
    ⟨.openBrace, "\x7b", q + 2, 1⟩ :: c₂.toList⟩, ?_, rfl,
    fun cs c expected ⟨hreads, htakes⟩ hstart _ => ?_⟩
  · rw [closing, String.toList_append, String.toList_append, List.append_assoc]
    exact hclosing
  rw [opening] at hreads ⊢
  have hpremise : Cursor.Premise ⟨⟨.keyword .ifThen, "if", 0, 2⟩,
      ⟨.openParen, "(", 3, 1⟩ :: c.toList⟩ expected
      ⟨⟨.openBrace, "\x7b", q + 2, 1⟩, c₂.toList⟩ := ⟨rfl, rfl, hstart, htakes⟩
  refine ⟨⟨_, _⟩, .beforeCondition (p := 0) hreads,
    selector_of_premise hpremise (fun e he => ?_) fun levels fuel => ?_⟩
  · cases expected <;> cases he
    rfl
  · have hconditional :=
      Parser.Gives.conditional levels fuel hpremise ⟨rfl, hstart₂, hc₂.takes⟩ rfl
    cases expected <;> exact hconditional

theorem holds_alternative (premise consequence : Series) :
    (alternative premise consequence).Holds := by
  intro q
  refine ⟨⟨_, [.atEnd (q + 1)]⟩, .brace q, rfl,
    fun cs c expected ⟨hreads, htakes⟩ hstart _ => ?_⟩
  rw [opening, String.length_append, String.length_append] at hreads
  have helse := Lexer.Reads.beforeAlternative hreads
  have hparted : Parted ("\x7d else \x7b".toList ++ cs) := .cons (c := '\x7d') rfl _
  obtain ⟨c₂, hc₂, hstart₂⟩ :=
    consequence.reads (w := .body) (d := ⟨_, _⟩) hparted rfl helse
  obtain ⟨c₀, d₁, hopening, hpremise, hbrace, rfl⟩ := reads_premise hc₂.reads
  refine ⟨c₀, ?_, selector_of_premise hpremise (fun e he => ?_) fun levels fuel => ?_⟩
  · rw [opening, String.toList_append, String.toList_append, List.append_assoc, List.append_assoc]
    exact hopening
  · cases expected <;> cases he
    rfl
  · have hconditional := Parser.Gives.conditional_alternative levels fuel hpremise
      ⟨hbrace, hstart₂, hc₂.takes⟩ rfl ⟨rfl, hstart, htakes⟩ rfl
    cases expected <;> exact hconditional

end

theorem holds (site : Site) : site.Holds := by
  cases site with
  | program => exact holds_program
  | call name h => exact holds_call name h
  | branch => exact holds_branch
  | array => exact holds_array
  | group => exact holds_group
  | map => exact holds_collection .map .map (fun _ => rfl) rfl rfl rfl (fun _ => rfl) fun _ => rfl
  | filter =>
    exact holds_collection .filter .filter (fun _ => rfl) rfl rfl rfl (fun _ => rfl) fun _ => rfl
  | each =>
    exact holds_collection .each .each (fun _ => rfl) rfl rfl rfl (fun _ => rfl) fun _ => rfl
  | search =>
    exact holds_collection .search .search (fun _ => rfl) rfl rfl rfl (fun _ => rfl) fun _ => rfl
  | condition consequence => exact holds_condition consequence
  | body premise => exact holds_body premise
  | alternative premise consequence => exact holds_alternative premise consequence

end Site

end DocSelect
