import DocSelect.Eval.Builtin
import DocSelect.Proofs.Alike.Run

/-!
# Built-in functions respect pairings

A built-in function sees no names: on paired nodes it fails with the same error, or has paired
results.
-/
namespace DocSelect

namespace Function.Respectful

open Action.Alike (throw)

variable {name : String}

theorem ofSubject {run : Ref → Action Ref}
    (h : ∀ {m : Pairing} {a b : Ref}, m a b → Action.Alike m (fun l => l) (run a) (run b)) :
    (Function.ofSubject name run).Respectful := fun _ _ _ _ _ hab _ => h hab

theorem unary {run : Ref → Ref → Action Ref}
    (h : ∀ {m : Pairing} {a b a' b' : Ref}, m a b → m a' b' →
      Action.Alike m (fun l => l) (run a a') (run b b')) :
    (Function.unary name run).Respectful := by
  intro m a b as bs hab has
  cases has with
  | nil => exact throw _
  | @cons a' b' as bs hab' has =>
    cases has with
    | nil => exact h hab hab'
    | cons _ has =>
      simp only [Function.unary, List.length_cons, has.length_eq]
      exact throw _

theorem binary {run : Ref → Ref → Action Ref}
    (h : ∀ {m : Pairing} {a b a' b' : Ref}, m a b → m a' b' →
      Action.Alike m (fun l => l) (run a a') (run b b')) :
    (Function.binary name run).Respectful := by
  intro m a b as bs hab has
  cases has with
  | nil => exact throw _
  | cons hab' has =>
    cases has with
    | nil => exact throw _
    | cons hab'' has =>
      cases has with
      | nil => exact h hab' hab''
      | cons _ has =>
        simp only [Function.binary, List.length_cons, has.length_eq]
        exact throw _

theorem variadic {run : Ref → Ref → List Ref → Action Ref}
    (h : ∀ {m : Pairing} {a b a' b' : Ref} {as bs : List Ref}, m a b → m a' b' →
      List.Forall₂ m as bs → Action.Alike m (fun l => l) (run a a' as) (run b b' bs)) :
    (Function.variadic name run).Respectful := by
  intro m a b as bs hab has
  cases has with
  | nil => exact throw _
  | cons hab' has => exact h hab hab' has

end Function.Respectful

namespace Builtin

open Action.Alike (pure throw refuse read ask bind bind_eq new)

variable {m : Pairing} {s t : Store} {a b a' b' : Ref} {as bs : List Ref}

-- ---------------------------------------------------------------------------
-- Numbers
-- ---------------------------------------------------------------------------

theorem respectful_len : len.Respectful := by
  refine .unary fun _ hab' => ?_
  exact (ask fun l hl _ _ hs => .of_eq (hs.length?_eq (hl _ _ hab'))).bind_eq fun _ _ _ =>
    new (.scalar _)

theorem expectNumbers_alike (function : String) (has : List.Forall₂ m as bs) :
    Action.Alike m (fun _ _ _ => True) (expectNumbers function as) (expectNumbers function bs) := by
  induction has with
  | nil => exact pure fun _ _ => trivial
  | cons hab _ ih =>
    refine (read fun l hl _ _ hs => hs.kind_eq (hl _ _ hab)).bind_eq fun l hl kind => ?_
    split
    · exact fun l' hl' => ih l' (hl.trans hl')
    · exact refuse _

theorem scalarOf_eq (h : s.Alike m t) (hab : m a b) : scalarOf s a = scalarOf t b := by
  have hd := h.data hab
  unfold scalarOf
  generalize s.data a = d, t.data b = d' at hd ⊢
  cases hd <;> rfl

theorem map_scalarOf_eq (h : s.Alike m t) (has : List.Forall₂ m as bs) :
    as.map (scalarOf s) = bs.map (scalarOf t) := by
  induction has with
  | nil => rfl
  | cons hab _ ih => exact congrArg₂ List.cons (scalarOf_eq h hab) ih

theorem total_alike (function : String) (has : List.Forall₂ m as bs) :
    Action.Alike m (fun l => l) (total function as) (total function bs) := by
  refine (expectNumbers_alike function has).bind fun l hl _ _ _ => ?_
  refine (ask fun l' hl' s t hs => .of_eq ?_).bind_eq fun _ _ _ => new (.scalar _)
  rw [map_scalarOf_eq hs (has.imp fun _ _ => (hl.trans hl') _ _)]

theorem best_alike (h : s.Alike m t) (wins : Ordering) (hab : m a b)
    (has : List.Forall₂ m as bs) : m (best s wins a as) (best t wins b bs) := by
  induction has generalizing a b with
  | nil => exact hab
  | cons hab' _ ih =>
    simp only [best, h.compare_eq hab' hab]
    split
    · exact ih hab'
    · exact ih hab

theorem any_float_eq (h : s.Alike m t) (has : List.Forall₂ m as bs) :
    (as.any fun a => s.kind a == .float) = bs.any fun b => t.kind b == .float := by
  induction has with
  | nil => rfl
  | cons hab _ ih => rw [List.any_cons, List.any_cons, h.kind_eq hab, ih]

theorem deepCopy_alike (hab : m a b) :
    Action.Alike m (fun l => l) (modifyGet (·.deepCopy a) : Action Ref)
      (modifyGet (·.deepCopy b)) :=
  .modifyGet fun _ hl _ _ hs => Store.Alike.grows_plant _ _ (hs.tree (hl _ _ hab)) hs

theorem extreme_alike (function : String) (wins : Ordering) (hab : m a b)
    (has : List.Forall₂ m as bs) :
    Action.Alike m (fun l => l) (extreme function wins a as) (extreme function wins b bs) := by
  refine (expectNumbers_alike function (.cons hab has)).bind fun l hl _ _ _ => ?_
  refine Action.Alike.get.bind fun l' hl' s t hs => ?_
  have hab' := (hl.trans hl') _ _ hab
  have has' := has.imp fun _ _ => (hl.trans hl') _ _
  have hbest := best_alike hs wins hab' has'
  simp only [scalarOf_eq hs hbest, any_float_eq hs (.cons hab' has')]
  split
  · split
    · exact new (.scalar _)
    · exact deepCopy_alike hbest
  · exact deepCopy_alike hbest

-- ---------------------------------------------------------------------------
-- Conversions
-- ---------------------------------------------------------------------------

theorem convert_alike (target : Kind) {f : Scalar → Except ArgumentProblem Data}
    (hf : ∀ x d, f x = .ok d → ∃ y, d = .scalar y) (hab : m a b) :
    Action.Alike m (fun l => l) (convert target f a) (convert target f b) := by
  refine (read fun l hl _ _ hs => hs.data (hl _ _ hab)).bind fun l hl d d' hd => ?_
  cases hd with
  | scalar x =>
    dsimp only
    split
    · rename_i d hd
      obtain ⟨y, rfl⟩ := hf x d hd
      exact new (.scalar y)
    · exact refuse _
  | slice => exact refuse _
  | map => exact refuse _

theorem respectful_asString : asString.Respectful :=
  .unary fun _ => convert_alike _ fun _ _ h => ⟨_, (Except.ok.inj h).symm⟩

theorem respectful_asInt : asInt.Respectful := by
  refine .unary fun _ => convert_alike _ fun x d h => ?_
  rcases hx : scalarInt x with e | i <;> rw [hx] at h
  · cases h
  · exact ⟨_, (Except.ok.inj h).symm⟩

theorem respectful_asFloat : asFloat.Respectful := by
  refine .unary fun _ => convert_alike _ fun x d h => ?_
  rcases hx : scalarFloat x with e | y <;> rw [hx] at h
  · cases h
  · exact ⟨_, (Except.ok.inj h).symm⟩

theorem respectful_typeOf : typeOf.Respectful := by
  refine .unary fun _ hab' => ?_
  exact (read fun l hl _ _ hs => hs.kind_eq (hl _ _ hab')).bind_eq fun _ _ _ => new (.scalar _)

-- ---------------------------------------------------------------------------
-- Collections
-- ---------------------------------------------------------------------------

theorem hasKey_eq (h : s.Alike m t) (hab : m a b) (hab' : m a' b') :
    hasKey s a a' = hasKey t b b' := by
  have hd := h.data hab
  have hk := h.data hab'
  unfold hasKey
  generalize s.data a = d, t.data b = e, s.data a' = d', t.data b' = e' at hd hk ⊢
  cases hk with
  | slice => cases hd <;> rfl
  | map => cases hd <;> rfl
  | scalar x =>
    cases hd with
    | scalar => rfl
    | slice hxs => cases x <;> simp only [hxs.length_eq]
    | map hes => cases x <;> simp only [hes.contains]

theorem respectful_has : has.Respectful := by
  refine .unary fun hab hab' => ?_
  refine (read fun l hl _ _ hs => hasKey_eq hs (hl _ _ hab) (hl _ _ hab')).bind_eq fun _ _ _ => ?_
  exact new (.scalar _)

theorem respectful_get : get.Respectful := by
  refine .unary fun {m a b a' b'} hab hab' => ?_
  refine Action.Alike.get.bind fun l hl s t hs => ?_
  have hd := hs.data (hl _ _ hab)
  have hk := hs.data (hl _ _ hab')
  have hold := hl _ _ hab
  generalize s.data a = d, t.data b = e, s.data a' = d', t.data b' = e' at hd hk ⊢
  cases hk with
  | slice => cases hd <;> exact throw _
  | map => cases hd <;> exact throw _
  | scalar x =>
    cases hd with
    | scalar => cases x <;> first | exact new (.scalar _) | exact throw _
    | slice =>
      cases x with
      | int i => exact ask fun _ hl' _ _ hs => hs.item? (hl' _ _ hold) i
      | string => exact new (.scalar _)
      | _ => exact throw _
    | map =>
      cases x with
      | string k => exact ask fun _ hl' _ _ hs => hs.key? (hl' _ _ hold) k
      | int => exact new (.scalar _)
      | _ => exact throw _

theorem any_equal_eq (h : s.Alike m t) (hab : m a b) (has : List.Forall₂ m as bs) :
    (as.any fun x => s.equal x a) = bs.any fun y => t.equal y b := by
  induction has with
  | nil => rfl
  | cons hxy _ ih => rw [List.any_cons, List.any_cons, h.equal_eq hxy hab, ih]

theorem respectful_contains : contains.Respectful := by
  refine .unary fun hab hab' => ?_
  refine (ask fun l hl _ _ hs => hs.items? (hl _ _ hab)).bind fun l hl xs ys hxs => ?_
  refine (read fun k hk _ _ hs => ?_).bind_eq fun _ _ _ => new (.scalar _)
  exact any_equal_eq hs ((hl.trans hk) _ _ hab') (hxs.imp fun _ _ => hk _ _)

theorem mergeAll_alike (h : s.Alike m t) {d d' : Dict Ref} (hd : d.Alike m d')
    (has : List.Forall₂ m as bs) :
    Except.Alike (Dict.Alike m) (mergeAll s d as) (mergeAll t d' bs) := by
  induction has generalizing d d' with
  | nil => exact .ok hd
  | @cons a b _ _ hab _ ih =>
    have hab := h.data hab
    unfold mergeAll
    generalize s.data a = e, t.data b = e' at hab ⊢
    cases hab with
    | scalar => exact .error _
    | slice => exact .error _
    | map hes => exact ih (hd.insertAll hes)

theorem respectful_merge : merge.Respectful := by
  refine .variadic fun _ hab' has => ?_
  refine (read (R := fun l => Except.Alike (Dict.Alike l)) fun l hl s t hs => ?_).bind ?_
  · exact mergeAll_alike hs .empty (.cons (hl _ _ hab') (has.imp fun _ _ => hl _ _))
  · intro l _ x y hxy
    cases hxy with
    | ok hd => exact new (.map hd)
    | error problem => exact refuse problem

theorem respectful_reverse : reverse.Respectful := by
  refine .unary fun _ hab' => ?_
  refine (read fun l hl _ _ hs => hs.kind_eq (hl _ _ hab')).bind_eq fun l hl kind => ?_
  split
  · exact (ask fun k hk _ _ hs => hs.range?
      ((hl.trans hk) _ _ hab') _ _).bind fun _ _ _ _ hd => new hd
  · exact refuse _

theorem joinable_eq (h : s.Alike m t) (has : List.Forall₂ m as bs) (place : Nat) :
    joinable s place as = joinable t place bs := by
  induction has generalizing place with
  | nil => rfl
  | @cons a b _ _ hab _ ih =>
    have hd := h.data hab
    unfold joinable
    generalize s.data a = d, t.data b = d' at hd ⊢
    cases hd with
    | scalar x => cases x <;> simp only [ih]
    | slice => rfl
    | map => rfl

theorem joinParts_alike (h : s.Alike m t) (hab : m a b) (has : List.Forall₂ m as bs) :
    Except.Alike (List.Forall₂ m) (joinParts s a as) (joinParts t b bs) := by
  cases has with
  | nil => exact h.items? hab
  | @cons x y as bs hxy has =>
    cases has with
    | cons hxy' has => exact .ok (.cons hxy (.cons hxy' has))
    | nil =>
      have hd := h.data hxy
      simp only [joinParts]
      generalize s.data x = d, t.data y = d' at hd ⊢
      cases hd with
      | scalar => exact .ok (.cons hxy .nil)
      | slice hxs => exact .ok hxs
      | map => exact .ok (.cons hxy .nil)

def joinWith (separator : String) (subject : Ref) (rest : List Ref) : Action Ref := do
  let parts ← Action.ask (joinParts · subject rest)
  match (← Action.read (joinable · 1 parts)) with
  | .ok texts => Action.new (.string (separator.intercalate texts))
  | .error problem => Action.refuse problem

theorem joinWith_alike (separator : String) (hab : m a b) (has : List.Forall₂ m as bs) :
    Action.Alike m (fun l => l) (joinWith separator a as) (joinWith separator b bs) := by
  refine (ask fun l hl _ _ hs => joinParts_alike hs (hl _ _ hab) (has.imp fun _ _ => hl _ _)).bind
    fun l _ parts parts' hparts => ?_
  refine (read fun k hk _ _ hs => joinable_eq hs (hparts.imp fun _ _ => hk _ _) 1).bind_eq
    fun k _ texts => ?_
  split
  · exact new (.scalar _)
  · exact refuse _

theorem respectful_join : join.Respectful :=
  .variadic fun hab hab' has =>
    (ask fun _ hl _ _ hs => .of_eq (hs.string?_eq (hl _ _ hab'))).bind_eq fun _ hl separator =>
      joinWith_alike separator (hl _ _ hab) (has.imp fun _ _ => hl _ _)

theorem respectful_ignore : ignore.Respectful := by
  refine .ofSubject fun {m a b} hab l hl s t hs => ?_
  exact ⟨l, le_refl l, hs.markIgnored (hl _ _ hab), .ok (hl _ _ hab)⟩

-- ---------------------------------------------------------------------------
-- Encodings
-- ---------------------------------------------------------------------------

theorem ofText_alike {f : String → Action Ref}
    (hf : ∀ (l : Pairing) (text : String), Action.Alike l (fun l => l) (f text) (f text))
    (hab : m a b) :
    Action.Alike m (fun l => l) (do f (← Action.ask (·.string? a)))
      (do f (← Action.ask (·.string? b))) :=
  (ask fun _ hl _ _ hs => .of_eq (hs.string?_eq (hl _ _ hab))).bind_eq fun l _ text => hf l text

theorem respectful_base64e : base64e.Respectful :=
  .unary fun _ hab' => ofText_alike (fun _ _ => new (.scalar _)) hab'

theorem respectful_base64d : base64d.Respectful := by
  refine .unary fun _ hab' => ofText_alike (fun _ text => ?_) hab'
  split
  · exact refuse _
  · split
    · exact refuse _
    · exact new (.scalar _)

theorem respectful_parse : parse.Respectful := by
  refine .binary fun {m _ _ a' b'} hab hab' => ?_
  refine (ask fun l hl _ _ hs => .of_eq (hs.string?_eq (hl _ _ hab))).bind_eq fun l hl name => ?_
  split
  · exact throw _
  · refine ofText_alike (fun _ text => ?_) (hl _ _ hab')
    split
    · exact throw _
    · exact .build _

theorem respectful_readFile (files : FileSystem) : (readFile files).Respectful := by
  refine .unary fun _ hab' => ofText_alike (fun _ text => ?_) hab'
  split
  · exact new (.scalar _)
  · exact throw _

end Builtin

-- ---------------------------------------------------------------------------
-- The registry
-- ---------------------------------------------------------------------------

theorem Registry.builtins_respectful (files : FileSystem) {name : String} {f : Function}
    (h : (Registry.builtins files).find? name = some f) : f.Respectful := by
  have hmem := Dict.mem_of_find?_ofList h
  simp only [Builtin.numeric, Builtin.conversions, Builtin.collections, Builtin.encodings,
    List.cons_append, List.nil_append, List.map_cons, List.map_nil, List.mem_cons, Prod.mk.injEq,
    List.not_mem_nil, or_false] at hmem
  rcases hmem with ⟨-, rfl⟩ | ⟨-, rfl⟩ | ⟨-, rfl⟩ | ⟨-, rfl⟩ | ⟨-, rfl⟩ |
    ⟨-, rfl⟩ | ⟨-, rfl⟩ | ⟨-, rfl⟩ | ⟨-, rfl⟩ | ⟨-, rfl⟩ | ⟨-, rfl⟩ |
    ⟨-, rfl⟩ | ⟨-, rfl⟩ | ⟨-, rfl⟩ | ⟨-, rfl⟩ | ⟨-, rfl⟩ | ⟨-, rfl⟩ |
    ⟨-, rfl⟩ | ⟨-, rfl⟩ | ⟨-, rfl⟩
  · exact Builtin.respectful_len
  · exact .variadic fun _ hab has => Builtin.total_alike _ (.cons hab has)
  · exact .variadic fun _ hab has => Builtin.total_alike _ (.cons hab has)
  · exact .variadic fun _ hab has => Builtin.extreme_alike _ _ hab has
  · exact .variadic fun _ hab has => Builtin.extreme_alike _ _ hab has
  · exact Builtin.respectful_asString
  · exact Builtin.respectful_asInt
  · exact Builtin.respectful_asFloat
  · exact Builtin.respectful_typeOf
  · exact Builtin.respectful_has
  · exact Builtin.respectful_get
  · exact Builtin.respectful_contains
  · exact Builtin.respectful_merge
  · exact Builtin.respectful_reverse
  · exact Builtin.respectful_join
  · exact Builtin.respectful_ignore
  · exact Builtin.respectful_base64e
  · exact Builtin.respectful_base64d
  · exact Builtin.respectful_parse
  · exact Builtin.respectful_readFile files

end DocSelect
