import DocSelect.Proofs.Joining.Mirror
import DocSelect.Proofs.Precedence.Leaf

/-!
# The productions in another place

Each production mirrors itself, given parsers of expressions that do. Productions look at the token
after what they take to decide whether they go on; at a token that may end an expression they decide
as at the end of the input, or the first input is refused there.
-/
namespace DocSelect

open DocSelect.Parser

/-- The parsers of the next level mirror one another inside of brackets, where an expression takes a
token and is never at the end of the input. -/
def Parser.Nested.Mirrored (d : Cursor) (nested₀ nested : Nested) : Prop :=
  ∀ (scope : Scope) (power : BindingPower) (c₀ : Cursor), scope ≠ .root →
    Mirrors d (nested₀ scope power) (nested scope power) c₀ fun _ c₀' =>
      c₀'.rest.length < c₀.rest.length ∧ c₀'.kind ≠ .eof

def Parser.IsStep (c₀ : Cursor) (e : Expr) (c₀' : Cursor) : Prop :=
  c₀'.rest.length < c₀.rest.length ∧ e.steps = [e]

theorem Parser.numberLiteral_eq_ok {t u : Token} {e : Expr} (hkind : u.kind = t.kind)
    (hvalue : u.value = t.value) (h : numberLiteral t = .ok e) : numberLiteral u = .ok e := by
  unfold numberLiteral at h ⊢
  dsimp only at h ⊢
  rw [hkind, hvalue]
  split at h
  · cases h
  · rename_i hnumber
    rw [if_neg hnumber]
    split at h
    · rename_i hlast
      rw [if_pos hlast]
      split at h
      · exact h
      · cases h
    · rename_i hlast
      rw [if_neg hlast]
      split at h
      · rename_i hdot
        rw [if_pos hdot]
        split at h
        · exact h
        · cases h
      · rename_i hdot
        rw [if_neg hdot]
        split at h
        · exact h
        · cases h

theorem Expr.flatMap_steps {es : List Expr} (h : ∀ e ∈ es, e.steps = [e]) :
    es.flatMap steps = es := by
  induction es with
  | nil => rfl
  | cons e es ih =>
    rw [List.flatMap_cons, h e List.mem_cons_self, ih fun e he => h e (List.mem_cons_of_mem _ he)]
    rfl

theorem Expr.chained_chained {es : List Expr} (h : ∀ e ∈ es, e.steps = [e]) :
    chained [chained es] = chained es := by
  match es, h with
  | [], _ => rfl
  | [e], h => simp [chained, h e List.mem_cons_self]
  | e :: f :: es, h =>
    have hchain : chained (e :: f :: es) = chain (e :: f :: es) := by rw [chained, flatMap_steps h]
    rw [hchain]
    simp [chained, steps]

namespace Parser.Nested.Mirrored

variable {d c₀ : Cursor} {nested₀ nested : Nested} {scope : Scope} {close separator : TokenKind}

section
variable (hn : Nested.Mirrored d nested₀ nested)
include hn

/-- At the end of the input there is no expression inside of brackets, and none just before it. -/
theorem refused_near_end (hscope : scope ≠ .root) (power : BindingPower) (hc : c₀.EndsOnce)
    (hrest : c₀.rest.length ≤ 1) {e : Expr} {c₀' : Cursor} :
    (nested₀ scope power).exec c₀ ≠ (.ok e, c₀') := by
  intro h
  obtain ⟨hc', -, ⟨hlt, hne⟩, -⟩ := hn scope power c₀ hscope hc e c₀' h id
  exact hne (hc'.ended.kind_eq (List.length_eq_zero_iff.1 (by omega)))

-- ---------------------------------------------------------------------------
-- Lists of expressions
-- ---------------------------------------------------------------------------

theorem sequenceLoop (hscope : scope ≠ .root) (hclose : close ≠ .eof)
    (hseparator : separator ≠ .eof) {fuel₀ fuel : Nat} (hfuel : fuel₀ ≤ fuel)
    (filled : Bool) :
    Mirrors d (sequenceLoop nested₀ scope close separator fuel₀ filled)
      (sequenceLoop nested scope close separator fuel filled) c₀ fun _ _ => True := by
  induction fuel₀ generalizing fuel filled c₀ with
  | zero => exact .unexpected
  | succ fuel₀ ih =>
    obtain ⟨fuel, rfl⟩ := Nat.exists_eq_add_one.2 (Nat.zero_lt_of_lt hfuel)
    have hfuel := Nat.le_of_succ_le_succ hfuel
    unfold Parser.sequenceLoop
    refine .kind (fun hne => ?_) fun _ _ => ?_
    · split
      · exact .take hne fun _ => .pure trivial
      split
      · split
        · exact .take hne fun _ => ih hfuel false
        · exact .unexpected
      · exact .bind (hn _ .default c₀ hscope) fun _ _ _ _ =>
          .bind (ih hfuel true) fun _ _ _ _ => .pure trivial
    · rw [if_neg hclose.symm, if_neg hseparator.symm, if_pos rfl]
      exact .unexpected

theorem sequence (hscope : scope ≠ .root) (hclose : close ≠ .eof)
    (hseparator : separator ≠ .eof) :
    Mirrors d (sequence nested₀ scope close separator)
      (sequence nested scope close separator) c₀ fun _ _ => True := by
  unfold Parser.sequence
  exact .rounds fun n hrounds => hn.sequenceLoop hscope hclose hseparator hrounds false

theorem arguments :
    Mirrors d (arguments nested₀) (arguments nested) c₀ fun _ c₀' => c₀'.rest.length <
      c₀.rest.length := by
  unfold Parser.arguments
  refine .bind (.expect (by decide)) fun _ c₁ _ hlt => ?_
  exact (hn.sequence (by decide) (by decide) (by decide)).mono fun _ _ hle _ =>
    Nat.lt_of_le_of_lt hle hlt

theorem statements (hscope : scope ≠ .root) (hclose : close ≠ .eof) :
    Mirrors d (statements nested₀ scope close) (statements nested scope close) c₀ fun _ _ =>
      True := by
  unfold Parser.statements
  refine .kind (fun _ => ?_) fun heof _ => ?_
  · split
    · exact .unexpected
    · exact .bind (hn.sequence hscope hclose (by decide)) fun _ _ _ _ => .pure trivial
  · -- the second input may have come to the closing token, the first one is refused at its end
    refine .refused fun _ r c₀' hx => ?_
    simp only [if_neg hclose.symm, exec_bind, Parser.sequence, exec_rounds,
      Parser.sequenceLoop, exec_kind, heof] at hx
    cases hx

theorem group : Mirrors d (group nested₀) (group nested) c₀ (IsStep c₀) := by
  unfold Parser.group
  refine .bind (.expect (by decide)) fun _ c₁ _ hlt => ?_
  refine .bind (hn.statements (by decide) (by decide)) fun _ c₂ hle _ => ?_
  exact .pure ⟨Nat.lt_of_le_of_lt hle hlt, rfl⟩

theorem array : Mirrors d (array nested₀) (array nested) c₀ (IsStep c₀) := by
  unfold Parser.array
  refine .bind (.expect (by decide)) fun _ c₁ _ hlt => ?_
  refine .bind (hn.sequence (by decide) (by decide) (by decide)) fun _ c₂ hle _ => ?_
  exact .pure ⟨Nat.lt_of_le_of_lt hle hlt, rfl⟩

theorem body : Mirrors d (body nested₀) (body nested) c₀ fun _ _ => True := by
  unfold Parser.body
  exact .bind (.expect (by decide)) fun _ _ _ _ => hn.statements (by decide) (by decide)

-- ---------------------------------------------------------------------------
-- Objects
-- ---------------------------------------------------------------------------

theorem objectEntry_near_end (hc : c₀.EndsOnce) (heof : c₀.nextKind = .eof)
    (hrest : c₀.rest.length ≤ 1) {entry : ObjectEntry} {c₀' : Cursor} :
    (objectEntry nested₀).exec c₀ ≠ (.ok entry, c₀') := by
  intro h
  obtain ⟨_, _, hlook, h⟩ := exec_bind_eq_ok_iff.1 h
  cases hlook
  obtain ⟨_, _, hlook, h⟩ := exec_bind_eq_ok_iff.1 h
  cases hlook
  simp only [heof, reduceCtorEq, Bool.or_self, and_false, if_false, Bool.false_eq_true,
    show (TokenKind.eof == TokenKind.comma) = false from rfl,
    show (TokenKind.eof == TokenKind.closeBrace) = false from rfl] at h
  obtain ⟨_, _, hkey, -⟩ := exec_bind_eq_ok_iff.1 h
  exact hn.refused_near_end (by decide) _ hc hrest hkey

theorem objectEntry :
    Mirrors d (objectEntry nested₀) (objectEntry nested) c₀ fun _ _ => True := by
  by_cases hnear : c₀.nextKind = .eof ∧ c₀.rest.length ≤ 1
  · exact .refused fun hc _ _ => hn.objectEntry_near_end hc hnear.1 hnear.2
  unfold Parser.objectEntry
  refine .current (fun hne u hkind hvalue => .nextKind hne ?_ fun heof hlength => ?_)
    fun heof hrest => ?_
  · dsimp only
    rw [hkind, hvalue]
    split
    · exact .take hne fun _ => .pure trivial
    split
    · exact .take hne fun _ => .pure trivial
    split
    · rename_i hcolon
      refine .take hne fun _ => .take ?_ fun _ => ?_
      · rw [Cursor.kind_advance, hcolon.2]
        decide
      · exact .bind (hn _ .default _ (by decide)) fun _ _ _ _ => .pure trivial
    · refine .bind (hn _ .default c₀ (by decide)) fun key c₁ _ _ => ?_
      split
      · exact .pure trivial
      split
      · exact .pure trivial
      · refine .bind (.expect (by decide)) fun _ c₂ _ _ => ?_
        exact .bind (hn _ .default c₂ (by decide)) fun _ _ _ _ => .pure trivial
  · exact absurd ⟨heof, Nat.le_of_eq hlength⟩ hnear
  · have hnext : c₀.nextKind = .eof := by rw [Cursor.nextKind, hrest]; exact heof
    exact absurd ⟨hnext, by rw [hrest]; exact Nat.zero_le _⟩ hnear

theorem objectLoop {fuel₀ fuel : Nat} (hfuel : fuel₀ ≤ fuel) :
    Mirrors d (objectLoop nested₀ fuel₀) (objectLoop nested fuel) c₀ fun _ _ => True := by
  induction fuel₀ generalizing fuel c₀ with
  | zero => exact .unexpected
  | succ fuel₀ ih =>
    obtain ⟨fuel, rfl⟩ := Nat.exists_eq_add_one.2 (Nat.zero_lt_of_lt hfuel)
    have hfuel := Nat.le_of_succ_le_succ hfuel
    unfold Parser.objectLoop
    refine .kind (fun hne => ?_) fun heof hrest => ?_
    · split
      · exact .take hne fun _ => .pure trivial
      · refine .bind hn.objectEntry fun entry c₁ _ _ => .kind (fun hne => ?_) fun _ _ => ?_
        · split
          · exact .take hne fun _ => .bind (ih hfuel) fun _ _ _ _ => .pure trivial
          split
          · exact .refused fun _ _ _ h => by cases h
          · exact .bind (ih hfuel) fun _ _ _ _ => .pure trivial
        · exact .refused fun _ _ _ h => by cases h
    · refine .refused fun hc r c₀' h => ?_
      obtain ⟨_, _, hentry, -⟩ := exec_bind_eq_ok_iff.1 h
      refine hn.objectEntry_near_end hc ?_ (by rw [hrest]; exact Nat.zero_le _) hentry
      rw [Cursor.nextKind, hrest]
      exact heof

theorem object : Mirrors d (object nested₀) (object nested) c₀ (IsStep c₀) := by
  unfold Parser.object
  refine .bind (.expect (by decide)) fun _ c₁ _ hlt => .rounds fun n hrounds => ?_
  refine .bind (hn.objectLoop hrounds) fun _ c₂ hle _ => ?_
  exact .pure ⟨Nat.lt_of_le_of_lt hle hlt, rfl⟩

-- ---------------------------------------------------------------------------
-- Steps of a chain
-- ---------------------------------------------------------------------------

theorem rangeBound {absentBefore : TokenKind} (hne : absentBefore ≠ .eof) :
    Mirrors d (bound nested₀ absentBefore) (bound nested absentBefore) c₀ fun _ _ => True := by
  unfold Parser.bound
  refine .kind (fun _ => ?_) fun _ hrest => ?_
  · split
    · exact .pure trivial
    · exact .bind (hn _ .default c₀ (by decide)) fun _ _ _ _ => .pure trivial
  · rw [if_neg hne.symm]
    refine .refused fun hc _ _ h => ?_
    obtain ⟨_, _, hkey, -⟩ := exec_bind_eq_ok_iff.1 h
    exact hn.refused_near_end (by decide) _ hc (by rw [hrest]; exact Nat.zero_le _) hkey

theorem brackets : Mirrors d (brackets nested₀) (brackets nested) c₀ (IsStep c₀) := by
  unfold Parser.brackets
  refine .bind (.expect (by decide)) fun _ c₁ _ hlt =>
    .kind (fun hne => .ifNextKind hne ?_ ?_ ?_) ?_
  · -- three points may be followed by the end of the first input
    -- and by a bracket in the second one
    intro _ hlength
    by_cases hk : c₁.kind = .ellipsis
    · refine .inr (.refused fun hc _ _ h => ?_)
      rw [if_neg (by simp)] at h
      obtain ⟨_, _, hbound, -⟩ := exec_bind_eq_ok_iff.1 h
      rw [bound, exec_bind, exec_kind, hk] at hbound
      obtain ⟨_, _, hkey, -⟩ := exec_bind_eq_ok_iff.1 hbound
      exact hn.refused_near_end (by decide) _ hc (Nat.le_of_eq hlength) hkey
    · exact .inl (iff_of_false (fun h => hk h.1) fun h => hk h.1)
  · rintro ⟨-, hnext⟩
    refine .take (by assumption) fun hlt₁ => .take ?_ fun hlt₂ => .pure ⟨by omega, rfl⟩
    rw [Cursor.kind_advance, hnext]
    decide
  · intro _
    refine .bind (hn.rangeBound (by decide)) fun start c₂ hle _ =>
      .kind (fun hne => ?_) fun heof _ => ?_
    · split
      · exact .take hne fun hlt₁ => .pure ⟨by omega, rfl⟩
      · refine .bind (.expect (by decide)) fun _ c₃ hle₃ _ => ?_
        refine .bind (hn.rangeBound (by decide)) fun stop c₄ hle₄ _ => ?_
        exact .bind (.expect (by decide)) fun _ c₅ hle₅ _ => .pure ⟨by omega, rfl⟩
    · refine .refused fun _ _ _ h => ?_
      cases start <;>
      · obtain ⟨_, _, hcolon, -⟩ := exec_bind_eq_ok_iff.1 h
        rw [exec_expect_of_ne (by rw [heof]; decide)] at hcolon
        cases hcolon
  · intro heof hrest
    refine .refused fun hc _ _ h => ?_
    obtain ⟨_, _, hlook, h⟩ := exec_bind_eq_ok_iff.1 h
    cases hlook
    rw [if_neg (by simp)] at h
    obtain ⟨_, _, hbound, -⟩ := exec_bind_eq_ok_iff.1 h
    rw [bound, exec_bind, exec_kind, heof] at hbound
    obtain ⟨_, _, hkey, -⟩ := exec_bind_eq_ok_iff.1 hbound
    exact hn.refused_near_end (by decide) _ hc (by rw [hrest]; exact Nat.zero_le _) hkey

omit hn in
theorem descent : Mirrors d descent descent c₀ (IsStep c₀) := by
  unfold Parser.descent
  refine .current (fun hne u hkind hvalue => ?_) fun heof _ => ?_
  · rw [hkind, hvalue]
    split
    case h_5 h =>
      refine .take hne fun hlt => .current (fun hne u hkind hvalue => ?_) fun heof _ => ?_
      · split
        · rename_i i hnumber
          rw [numberLiteral_eq_ok hkind hvalue hnumber]
          refine .take hne fun hlt₁ => .bind (.expect (by decide)) fun _ c₂ hle₂ _ =>
            .pure ⟨by omega, rfl⟩
        · exact .throw _
        · exact .throw _
      · refine .refused fun _ _ _ h => ?_
        rw [numberLiteral, if_pos (by rw [show Token.kind _ = _ from heof]; decide)] at h
        cases h
    case h_6 => exact .unexpected
    all_goals exact .take hne fun hlt => .pure ⟨hlt, rfl⟩
  · rw [show c₀.current.kind = .eof from heof]
    exact .unexpected

theorem conditional (hd : d.kind.Ends) (hne : c₀.kind ≠ .eof) {fuel₀ fuel : Nat}
    (hfuel : fuel₀ ≤ fuel) :
    Mirrors d (conditional nested₀ fuel₀) (conditional nested fuel) c₀ (IsStep c₀) := by
  induction fuel₀ generalizing fuel c₀ with
  | zero => exact .unexpected
  | succ fuel₀ ih =>
    obtain ⟨fuel, rfl⟩ := Nat.exists_eq_add_one.2 (Nat.zero_lt_of_lt hfuel)
    have hfuel := Nat.le_of_succ_le_succ hfuel
    unfold Parser.conditional
    refine .take hne fun hlt => .bind (.expect (by decide)) fun _ c₁ hle₁ _ => ?_
    refine .bind (hn.statements (by decide) (by decide)) fun condition c₂ hle₂ _ => ?_
    refine .bind hn.body fun consequence c₃ hle₃ _ => .kind (fun hne => ?_) fun heof _ => ?_
    · split
      · exact .bind (ih hne hfuel) fun _ c₄ hle₄ _ => .pure ⟨by omega, rfl⟩
      · exact .take hne fun hlt₄ => .bind hn.body fun _ c₅ hle₅ _ =>
          .pure ⟨by omega, rfl⟩
      · exact .pure ⟨by omega, rfl⟩
    · rcases hd.cases with h | h | h | h | h | h | h <;> rw [h] <;> exact .pure ⟨by omega, rfl⟩

theorem collection (word : Keyword) (hne : c₀.kind ≠ .eof) :
    Mirrors d (collection nested₀ word) (collection nested word) c₀ fun _ c₀' =>
      c₀'.rest.length < c₀.rest.length := by
  unfold Parser.collection
  refine .current (fun hne u hkind hvalue => ?_) fun heof _ => absurd heof hne
  refine .take hne fun hlt => .bind hn.arguments fun es c₁ hle _ => ?_
  split
  · exact .throw _
  · exact .pure (Nat.lt_of_le_of_lt hle hlt)

omit hn in
theorem direction (hne : c₀.kind ≠ .eof) :
    Mirrors d direction direction c₀ fun _ _ => True := by
  unfold Parser.direction
  refine .kind (fun _ => ?_) fun heof _ => absurd heof hne
  split
  · refine .take hne fun _ => .kind (fun hne => ?_) fun _ _ => .unexpected
    split
    · exact .take hne fun _ => .pure trivial
    · exact .take hne fun _ => .pure trivial
    · exact .unexpected
  · exact .pure trivial

theorem sortBy (hne : c₀.kind ≠ .eof) :
    Mirrors d (sortBy nested₀) (sortBy nested) c₀ (IsStep c₀) := by
  unfold Parser.sortBy
  refine .take hne fun hlt => .bind (.expect (by decide)) fun _ c₁ hle₁ _ => ?_
  refine .bind (hn _ .default c₁ (by decide)) fun _ c₂ hle₂ hkey => ?_
  refine .bind (direction hkey.2) fun _ c₃ hle₃ _ =>
    .bind (.expect (by decide)) fun _ c₄ hle₄ _ => ?_
  exact .pure ⟨by omega, rfl⟩

theorem construct (hd : d.kind.Ends) (word : Keyword) (hne : c₀.kind ≠ .eof) :
    Mirrors d (construct nested₀ word) (construct nested word) c₀ (IsStep c₀) := by
  cases word with
  | ifThen => exact .rounds fun n hrounds => hn.conditional hd hne hrounds
  | branch =>
    exact .take hne fun hlt => .bind hn.arguments fun _ c₁ hle _ => .pure ⟨by omega, rfl⟩
  | map | filter | each | search =>
    exact .bind (hn.collection _ hne) fun _ _ _ hlt => .pure ⟨hlt, rfl⟩
  | sortBy => exact hn.sortBy hne
  | elseIf | elseThen | asc | desc => exact .unexpected

theorem primary (hd : d.kind.Ends) :
    Mirrors d (primary nested₀) (primary nested) c₀ (IsStep c₀) := by
  unfold Parser.primary
  refine .current (fun hne u hkind hvalue => ?_) fun heof _ => ?_
  · rw [hkind, hvalue]
    refine .ifNextKind hne ?_ ?_ ?_
    · exact fun _ _ => .inl (and_congr_right fun _ => iff_of_true hd.ne_openParen (by decide))
    · exact fun _ => .take hne fun hlt => .pure ⟨hlt, rfl⟩
    · intro _
      split
      case h_1 h =>
        refine .take hne fun hlt => ?_
        split
        · rename_i e hnumber
          rw [numberLiteral_eq_ok hkind hvalue hnumber]
          exact .pure ⟨hlt, steps_numberLiteral hnumber⟩
        · exact .throw _
      case h_7 =>
        refine .take hne fun hlt => .kind (fun _ => ?_) fun _ _ => ?_
        · split
          · exact .bind hn.arguments fun _ c₁ _ hlt₁ => .pure ⟨by omega, rfl⟩
          · exact .pure ⟨hlt, rfl⟩
        · rw [if_neg (by decide), if_neg hd.ne_openParen]
          exact .pure ⟨hlt, rfl⟩
      case h_9 =>
        exact .take hne fun hlt => descent.mono fun _ c₁ _ h => ⟨by have := h.1; omega, h.2⟩
      case h_10 => exact hn.group
      case h_11 => exact hn.array
      case h_12 => exact hn.object
      case h_13 word _ => exact hn.construct hd word hne
      case h_14 => exact .unexpected
      all_goals exact .take hne fun hlt => .pure ⟨hlt, rfl⟩
  · refine .refused fun _ _ _ h => ?_
    obtain ⟨_, _, hlook, h⟩ := exec_bind_eq_ok_iff.1 h
    cases hlook
    rw [show c₀.current.kind = .eof from heof, if_neg (by simp [isPropertyWord])] at h
    cases h

theorem furtherSteps (hd : d.kind.Ends) {fuel₀ fuel : Nat} (hrounds : c₀.rest.length < fuel₀)
    (hfuel : fuel₀ ≤ fuel) :
    Mirrors d (furtherSteps nested₀ fuel₀) (furtherSteps nested fuel) c₀ fun es _ =>
      ∀ e ∈ es, e.steps = [e] := by
  induction fuel₀ generalizing fuel c₀ with
  | zero => exact absurd hrounds (Nat.not_lt_zero _)
  | succ fuel₀ ih =>
    obtain ⟨fuel, rfl⟩ := Nat.exists_eq_add_one.2 (Nat.zero_lt_of_lt hfuel)
    have hfuel := Nat.le_of_succ_le_succ hfuel
    have hmore {e : Expr} {c₁ : Cursor} (hlt : c₁.rest.length < c₀.rest.length)
        (he : e.steps = [e]) :
        Mirrors d (do return e :: (← Parser.furtherSteps nested₀ fuel₀))
          (do return e :: (← Parser.furtherSteps nested fuel)) c₁ fun es _ => ∀ e ∈
            es, e.steps = [e] :=
      .bind (ih (by omega) hfuel) fun es c₂ _ hes => .pure (List.forall_mem_cons.2 ⟨he, hes⟩)
    unfold Parser.furtherSteps
    refine .kind (fun hne => ?_) fun _ _ => ?_
    · split
      · refine .take hne fun hlt => .bind (hn.primary hd) fun e c₁ hle he =>
          hmore (by omega) he.2
      · refine .take hne fun hlt => .bind descent fun e c₁ hle he => hmore (by omega) he.2
      · exact .bind hn.brackets fun e c₁ _ he => hmore he.1 he.2
      · exact .take hne fun hlt => hmore hlt rfl
      · exact .pure nofun
    · rcases hd.cases with h | h | h | h | h | h | h <;> rw [h] <;> exact .pure nofun

theorem chain (hd : d.kind.Ends) :
    Mirrors d (chain nested₀) (chain nested) c₀ fun e c₀' =>
      c₀'.rest.length < c₀.rest.length ∧ Expr.chained [e] = e := by
  unfold Parser.chain
  refine .bind (hn.primary hd) fun first c₁ _ hfirst => .rounds fun n hrounds => ?_
  refine .bind (hn.furtherSteps hd (Nat.lt_succ_self _) hrounds) fun further c₂ hle hfurther =>
    .pure ⟨?_, ?_⟩
  · exact Nat.lt_of_le_of_lt hle hfirst.1
  · exact Expr.chained_chained (List.forall_mem_cons.2 ⟨hfirst.2, hfurther⟩)

end

end Parser.Nested.Mirrored

end DocSelect
