import DocSelect.Eval.Builtin
import DocSelect.Proofs.Soundness.Rules

/-!
# The built-in functions keep stores sound

They add nodes whose parts are parts of their arguments, copy a value, build a new one, or mark
their subject. None of them gives up.
-/
namespace DocSelect

variable {α β : Type} {w : Concern} {s t : Store}

namespace Action.Keeps

variable {Q : α → Store → Prop} {Q' : β → Store → Prop}

theorem of_exec {a : Action α} {result : Except EvalError α} (hs : s.Sound w)
    (h : a.exec s = (result, s)) (he : ∀ e, result = .error e → e.gaveUp = false)
    (hQ : ∀ r, result = .ok r → Q r s) : a.Keeps w s Q := by
  refine ⟨?_, ?_, ?_, ?_⟩ <;> rw [h]
  · exact hs
  · exact .refl s
  · exact hQ
  · exact he

theorem pure {a : α} (hs : s.Sound w) (hQ : Q a s) : Keeps w (pure a) s Q :=
  of_exec hs rfl (fun _ h => by cases h) fun _ h => by cases h; exact hQ

theorem throw (hs : s.Sound w) {e : EvalError} (he : e.gaveUp = false) :
    Keeps w (throw e : Action α) s Q :=
  of_exec hs rfl (fun _ h => by cases h; exact he) fun _ h => by cases h

theorem refuse (hs : s.Sound w) (problem : ArgumentProblem) :
    Keeps w (refuse problem : Action α) s Q := throw hs rfl

theorem bind {a : Action α} {f : α → Action β} (ha : a.Keeps w s Q)
    (hf : ∀ r t, t.Sound w → s.Onward t → Q r t → (f r).Keeps w t Q') :
    (a >>= f).Keeps w s Q' := by
  obtain ⟨hleft, hon, hresult, herror⟩ := ha
  have hexec := exec_bind a f s
  rcases h : a.exec s with ⟨e | r, t⟩ <;> rw [h] at hexec hleft hon hresult herror
  · refine ⟨?_, ?_, ?_, ?_⟩ <;> rw [hexec]
    · exact hleft
    · exact hon
    · intro r hr
      cases hr
    · intro e' he
      cases he
      exact herror e rfl
  · obtain ⟨hleft', hon', hresult', herror'⟩ := hf r t hleft hon (hresult r rfl)
    refine ⟨?_, ?_, ?_, ?_⟩ <;> rw [hexec]
    · exact hleft'
    · exact hon.trans hon'
    · exact hresult'
    · exact herror'

theorem mono {a : Action α} {Q' : α → Store → Prop} (ha : a.Keeps w s Q)
    (hQ : ∀ r t, s.Onward t → Q r t → Q' r t) : a.Keeps w s Q' :=
  ⟨ha.left, ha.onward, fun r hr => hQ r _ ha.onward (ha.result r hr), ha.error⟩

theorem read (hs : s.Sound w) {g : Store → α} {f : α → Action β}
    (hf : (f (g s)).Keeps w s Q') : (Action.read g >>= f).Keeps w s Q' := by
  have hread : (Action.read g).Keeps w s fun r t => r = g s ∧ t = s :=
    of_exec hs (exec_read g s) (fun _ h => by cases h) fun _ h => by cases h; exact ⟨rfl, rfl⟩
  refine hread.bind ?_
  rintro r t - - ⟨rfl, rfl⟩
  exact hf

theorem ask (hs : s.Sound w) (g : Store → Except ValueError α) :
    (ask g).Keeps w s fun r t => g s = .ok r ∧ t = s := by
  refine of_exec hs (exec_ask g s) ?_ ?_ <;> intro _ h
  · cases hg : g s with
    | ok => rw [hg] at h; cases h
    | error => rw [hg] at h; cases h; rfl
  · cases hg : g s with
    | ok => rw [hg] at h; cases h; exact ⟨rfl, rfl⟩
    | error => rw [hg] at h; cases h

theorem asking (hs : s.Sound w) {g : Store → Except ValueError α} {f : α → Action β}
    (hf : ∀ r, g s = .ok r → (f r).Keeps w s Q') : (Action.ask g >>= f).Keeps w s Q' :=
  (ask hs g).bind fun r _ _ _ h => h.2 ▸ hf r h.1

theorem get (hs : s.Sound w) {f : Store → Action β} (hf : (f s).Keeps w s Q') :
    (MonadState.get >>= f).Keeps w s Q' := read hs (g := id) hf

theorem new (hs : s.Sound w) {d : Data} (hfit : ∀ c ∈ d.children, s.Fit w c) :
    (new d).Keeps w s fun r t => t.Known r :=
  ⟨hs.new hfit, s.onward_add _, fun _ h => by cases h; exact s.known_add_self _,
    fun _ h => by cases h⟩

theorem scalar (hs : s.Sound w) (a : Scalar) :
    (Action.new (.scalar a)).Keeps w s fun r t => t.Known r :=
  new hs fun _ hc => absurd hc List.not_mem_nil

theorem build (hs : s.Sound w) (c : Content) : (build c).Keeps w s fun r t => t.Known r := by
  have hg := s.grown_build c
  refine ⟨(Store.sound_build c hs).1, .of_grown hg, fun r h => ?_, fun _ h => by cases h⟩
  cases h
  exact (hg.root_fresh (List.mem_singleton.2 rfl)).2

theorem deepCopy (hs : s.Sound w) (r : Ref) :
    (modifyGet (·.deepCopy r) : Action Ref).Keeps w s fun r t => t.Known r := by
  have hg := s.grown_plant (s.tree r)
  refine ⟨hs.deepCopy r, .of_grown hg, fun r h => ?_, fun _ h => by cases h⟩
  cases h
  exact (hg.root_fresh (List.mem_singleton.2 rfl)).2

end Action.Keeps

-- ---------------------------------------------------------------------------
-- Functions
-- ---------------------------------------------------------------------------

/-- Called with nodes that are there, the function keeps a store sound, and a result is a node of
it. -/
def Function.Keeps (w : Concern) (f : Function) : Prop :=
  ∀ s subject arguments, s.Sound w → s.Known subject → (∀ a ∈ arguments, s.Known a) →
    (f.run subject arguments).Keeps w s fun r t => t.Known r

namespace Function.Keeps

variable {name : String}

theorem ofSubject {run : Ref → Action Ref}
    (h : ∀ s subject, s.Sound w → s.Known subject →
      (run subject).Keeps w s fun r t => t.Known r) :
    (Function.ofSubject name run).Keeps w := fun s subject _ hs hsub _ => h s subject hs hsub

theorem unary {run : Ref → Ref → Action Ref}
    (h : ∀ s subject a, s.Sound w → s.Known subject → s.Known a →
      (run subject a).Keeps w s fun r t => t.Known r) : (Function.unary name run).Keeps w := by
  intro s subject arguments hs hsub harg
  match arguments with
  | [] => exact .throw hs rfl
  | [a] => exact h s subject a hs hsub (harg a List.mem_cons_self)
  | _ :: _ :: _ => exact .throw hs rfl

theorem binary {run : Ref → Ref → Action Ref}
    (h : ∀ s a b, s.Sound w → (run a b).Keeps w s fun r t => t.Known r) :
    (Function.binary name run).Keeps w := by
  intro s subject arguments hs _ _
  match arguments with
  | [] => exact .throw hs rfl
  | [_] => exact .throw hs rfl
  | [a, b] => exact h s a b hs
  | _ :: _ :: _ :: _ => exact .throw hs rfl

theorem variadic {run : Ref → Ref → List Ref → Action Ref}
    (h : ∀ s subject first rest, s.Sound w →
      (run subject first rest).Keeps w s fun r t => t.Known r) :
    (Function.variadic name run).Keeps w := by
  intro s subject arguments hs _ _
  cases arguments with
  | nil => exact .throw hs rfl
  | cons first rest => exact h s subject first rest hs

end Function.Keeps

namespace Builtin

open Action.Keeps (throw refuse read ask asking new scalar build deepCopy)

-- ---------------------------------------------------------------------------
-- Numbers
-- ---------------------------------------------------------------------------

theorem keeps_len : len.Keeps w :=
  .unary fun _ _ _ hs _ _ => asking hs fun _ _ => scalar hs _

theorem keeps_expectNumbers (hs : s.Sound w) (function : String) (arguments : List Ref) :
    (expectNumbers function arguments).Keeps w s fun _ t => t = s := by
  induction arguments with
  | nil => exact .pure hs rfl
  | cons a rest ih =>
    refine read hs ?_
    split
    · exact ih
    · exact refuse hs _

theorem keeps_total (hs : s.Sound w) (function : String) (arguments : List Ref) :
    (total function arguments).Keeps w s fun r t => t.Known r :=
  (keeps_expectNumbers hs function arguments).bind fun _ _ ht _ _ =>
    asking ht fun _ _ => scalar ht _

theorem keeps_extreme (hs : s.Sound w) (function : String) (wins : Ordering) (first : Ref)
    (rest : List Ref) : (extreme function wins first rest).Keeps w s fun r t => t.Known r := by
  refine (keeps_expectNumbers hs function _).bind fun _ _ ht _ _ => .get ht ?_
  dsimp only
  split
  · split
    · exact scalar ht _
    · exact deepCopy ht _
  · exact deepCopy ht _

-- ---------------------------------------------------------------------------
-- Conversions
-- ---------------------------------------------------------------------------

theorem keeps_convert (hs : s.Sound w) (target : Kind) {f : Scalar → Except ArgumentProblem Data}
    (hf : ∀ a d, f a = .ok d → d.children = []) (r : Ref) :
    (convert target f r).Keeps w s fun r t => t.Known r := by
  refine read hs ?_
  split
  · rename_i a _
    split
    · rename_i d hd
      exact new hs fun c hc => absurd (hf a d hd ▸ hc) List.not_mem_nil
    · exact refuse hs _
  · exact refuse hs _

theorem children_map_eq_nil {α : Type} {x : Except ArgumentProblem α} {f : α → Data}
    (hf : ∀ a, (f a).children = []) {d : Data} (h : x.map f = .ok d) : d.children = [] := by
  cases x <;> cases h
  exact hf _

theorem keeps_asString : asString.Keeps w :=
  .unary fun _ _ _ hs _ _ => keeps_convert hs _ (fun _ _ h => by cases h; rfl) _

theorem keeps_asInt : asInt.Keeps w :=
  .unary fun _ _ _ hs _ _ => keeps_convert hs _ (fun _ _ => children_map_eq_nil fun _ => rfl) _

theorem keeps_asFloat : asFloat.Keeps w :=
  .unary fun _ _ _ hs _ _ => keeps_convert hs _ (fun _ _ => children_map_eq_nil fun _ => rfl) _

theorem keeps_typeOf : typeOf.Keeps w := .unary fun _ _ _ hs _ _ => read hs (scalar hs _)

-- ---------------------------------------------------------------------------
-- Collections
-- ---------------------------------------------------------------------------

theorem keeps_has : has.Keeps w := .unary fun _ _ _ hs _ _ => read hs (scalar hs _)

theorem keeps_lookUp (hs : s.Sound w) (subject key : Ref) :
    (lookUp subject key).Keeps w s fun r t => t.Known r := by
  refine .get hs ?_
  split
  · refine (ask hs _).mono ?_
    rintro r t - ⟨h, rfl⟩
    exact hs.part_known (Store.part_of_key? h)
  · refine (ask hs _).mono ?_
    rintro r t - ⟨h, rfl⟩
    exact hs.part_known (Store.part_of_item? h)
  · exact scalar hs _
  · exact scalar hs _
  · exact throw hs rfl

theorem keeps_get : get.Keeps w := .unary fun _ subject key hs _ _ => keeps_lookUp hs subject key

theorem keeps_contains : contains.Keeps w :=
  .unary fun _ _ _ hs _ _ => asking hs fun _ _ => read hs (scalar hs _)

theorem fit_mergeAll (hs : s.Sound w) {merged d : Dict Ref} {arguments : List Ref}
    (hm : ∀ c ∈ merged.values, s.Fit w c) (h : mergeAll s merged arguments = .ok d) :
    ∀ c ∈ d.values, s.Fit w c := by
  induction arguments generalizing merged with
  | nil =>
    cases h
    exact hm
  | cons a rest ih =>
    unfold mergeAll at h
    split at h
    · rename_i entries hd
      refine ih (fun c hc => ?_) h
      rcases Dict.mem_values_insertAll hc with hc | hc
      · exact hm c hc
      · exact hs.entry_fit hd c hc
    · cases h

theorem keeps_merge : merge.Keeps w := by
  refine .variadic fun s _ first rest hs => read hs ?_
  split
  · rename_i merged h
    exact new hs (fit_mergeAll hs (fun _ hc => absurd hc List.not_mem_nil) h)
  · exact refuse hs _

theorem keeps_reverse : reverse.Keeps w := by
  refine .unary fun s _ argument hs _ _ => read hs ?_
  split
  · exact asking hs fun d hd => new hs fun c hc => hs.part_fit (Store.part_of_range? hd hc)
  · exact refuse hs _

theorem keeps_join : join.Keeps w := by
  refine .variadic fun s _ first rest hs => asking hs fun _ _ => asking hs fun _ _ => read hs ?_
  split
  · exact scalar hs _
  · exact refuse hs _

theorem keeps_ignore : ignore.Keeps w :=
  .ofSubject fun s subject hs hsub => ⟨hs.markIgnored subject, s.onward_markIgnored subject,
    fun _ h => by cases h; exact (s.onward_markIgnored subject).known hsub, fun _ h => by cases h⟩

-- ---------------------------------------------------------------------------
-- Encodings
-- ---------------------------------------------------------------------------

theorem keeps_base64e : base64e.Keeps w :=
  .unary fun _ _ _ hs _ _ => asking hs fun _ _ => scalar hs _

theorem keeps_base64d : base64d.Keeps w := by
  refine .unary fun _ _ _ hs _ _ => asking hs fun _ _ => ?_
  split
  · exact refuse hs _
  · split
    · exact refuse hs _
    · exact scalar hs _

theorem keeps_parse : parse.Keeps w := by
  refine .binary fun _ _ _ hs => asking hs fun _ _ => ?_
  split
  · exact throw hs rfl
  · refine asking hs fun _ _ => ?_
    split
    · exact throw hs rfl
    · exact build hs _

theorem keeps_readFile (files : FileSystem) : (readFile files).Keeps w := by
  refine .unary fun _ _ _ hs _ _ => asking hs fun _ _ => ?_
  split
  · exact scalar hs _
  · exact throw hs rfl

end Builtin

-- ---------------------------------------------------------------------------
-- The registry
-- ---------------------------------------------------------------------------

theorem Registry.builtins_keep (files : FileSystem) {name : String} {f : Function}
    (h : (Registry.builtins files).find? name = some f) : f.Keeps w := by
  have hmem := Dict.mem_of_find?_ofList h
  simp only [Builtin.numeric, Builtin.conversions, Builtin.collections, Builtin.encodings,
    List.cons_append, List.nil_append, List.map_cons, List.map_nil, List.mem_cons, Prod.mk.injEq,
    List.not_mem_nil, or_false] at hmem
  rcases hmem with ⟨-, rfl⟩ | ⟨-, rfl⟩ | ⟨-, rfl⟩ | ⟨-, rfl⟩ | ⟨-, rfl⟩ |
    ⟨-, rfl⟩ | ⟨-, rfl⟩ | ⟨-, rfl⟩ | ⟨-, rfl⟩ | ⟨-, rfl⟩ | ⟨-, rfl⟩ |
    ⟨-, rfl⟩ | ⟨-, rfl⟩ | ⟨-, rfl⟩ | ⟨-, rfl⟩ | ⟨-, rfl⟩ | ⟨-, rfl⟩ |
    ⟨-, rfl⟩ | ⟨-, rfl⟩ | ⟨-, rfl⟩
  · exact Builtin.keeps_len
  · exact .variadic fun _ _ _ _ hs => Builtin.keeps_total hs _ _
  · exact .variadic fun _ _ _ _ hs => Builtin.keeps_total hs _ _
  · exact .variadic fun _ _ _ _ hs => Builtin.keeps_extreme hs _ _ _ _
  · exact .variadic fun _ _ _ _ hs => Builtin.keeps_extreme hs _ _ _ _
  · exact Builtin.keeps_asString
  · exact Builtin.keeps_asInt
  · exact Builtin.keeps_asFloat
  · exact Builtin.keeps_typeOf
  · exact Builtin.keeps_has
  · exact Builtin.keeps_get
  · exact Builtin.keeps_contains
  · exact Builtin.keeps_merge
  · exact Builtin.keeps_reverse
  · exact Builtin.keeps_join
  · exact Builtin.keeps_ignore
  · exact Builtin.keeps_base64e
  · exact Builtin.keeps_base64d
  · exact Builtin.keeps_parse
  · exact Builtin.keeps_readFile files

end DocSelect
