import DocSelect.Proofs.Wrapping.Basic

/-!
# Errors of the built-in functions

What a built-in function refuses, it refuses itself: no error of one has a wrapper.
-/
namespace DocSelect

def Function.Bare (f : Function) : Prop := ∀ subject arguments, (f.run subject arguments).Bare

theorem Function.Bare.call {f : Function} (hf : f.Bare) (subject : Ref) (arguments : List Ref) :
    (f.call subject arguments).Bare := by
  unfold Function.call
  split
  · exact hf subject arguments
  · exact .throw rfl

namespace Builtin

open Action.Bare (pure throw refuse read ask new modifyGet bind)

theorem bare_unary {name : String} {run : Ref → Ref → Action Ref}
    (h : ∀ subject argument, (run subject argument).Bare) : (Function.unary name run).Bare := by
  intro subject arguments
  match arguments with
  | [] => exact throw rfl
  | [a] => exact h subject a
  | _ :: _ :: _ => exact throw rfl

theorem bare_binary {name : String} {run : Ref → Ref → Action Ref}
    (h : ∀ first second, (run first second).Bare) : (Function.binary name run).Bare := by
  intro subject arguments
  match arguments with
  | [] => exact throw rfl
  | [_] => exact throw rfl
  | [a, b] => exact h a b
  | _ :: _ :: _ :: _ => exact throw rfl

theorem bare_variadic {name : String} {run : Ref → Ref → List Ref → Action Ref}
    (h : ∀ subject first rest, (run subject first rest).Bare) :
    (Function.variadic name run).Bare := by
  intro subject arguments
  cases arguments with
  | nil => exact throw rfl
  | cons first rest => exact h subject first rest

-- ---------------------------------------------------------------------------
-- Numbers
-- ---------------------------------------------------------------------------

theorem bare_len : len.Bare := bare_unary fun _ _ => bind (ask _) fun _ => new _

theorem bare_expectNumbers (function : String) (arguments : List Ref) :
    (expectNumbers function arguments).Bare := by
  induction arguments with
  | nil => exact pure ()
  | cons a rest ih =>
    refine bind (read _) fun kind => ?_
    split
    · exact ih
    · exact refuse _

theorem bare_total (function : String) (arguments : List Ref) : (total function arguments).Bare :=
  bind (bare_expectNumbers function arguments) fun _ => bind (ask _) fun _ => new _

theorem bare_extreme (function : String) (wins : Ordering) (first : Ref) (rest : List Ref) :
    (extreme function wins first rest).Bare := by
  refine bind (bare_expectNumbers function _) fun _ => bind .get fun s => ?_
  dsimp only
  split
  · split
    · exact new _
    · exact modifyGet _
  · exact modifyGet _

-- ---------------------------------------------------------------------------
-- Conversions
-- ---------------------------------------------------------------------------

theorem bare_convert (target : Kind) (f : Scalar → Except ArgumentProblem Data) (r : Ref) :
    (convert target f r).Bare := by
  refine bind (read _) fun d => ?_
  split
  · split
    · exact new _
    · exact refuse _
  · exact refuse _

theorem bare_typeOf : typeOf.Bare := bare_unary fun _ _ => bind (read _) fun _ => new _

-- ---------------------------------------------------------------------------
-- Collections
-- ---------------------------------------------------------------------------

theorem bare_has : has.Bare := bare_unary fun _ _ => bind (read _) fun _ => new _

theorem bare_lookUp (subject key : Ref) : (lookUp subject key).Bare := by
  refine bind .get fun s => ?_
  split
  · exact ask _
  · exact ask _
  · exact new _
  · exact new _
  · exact throw rfl

theorem bare_contains : contains.Bare :=
  bare_unary fun _ _ => bind (ask _) fun _ => bind (read _) fun _ => new _

theorem bare_merge : merge.Bare := by
  refine bare_variadic fun _ _ _ => bind (read _) fun merged => ?_
  split
  · exact new _
  · exact refuse _

theorem bare_reverse : reverse.Bare := by
  refine bare_unary fun _ _ => bind (read _) fun kind => ?_
  split
  · exact bind (ask _) fun _ => new _
  · exact refuse _

theorem bare_join : join.Bare := by
  refine bare_variadic fun _ _ _ => bind (ask _) fun _ => bind (ask _) fun _ => ?_
  refine bind (read _) fun texts => ?_
  split
  · exact new _
  · exact refuse _

theorem bare_ignore : ignore.Bare := fun _ _ => bind (modifyGet _) fun _ => pure _

-- ---------------------------------------------------------------------------
-- Encodings
-- ---------------------------------------------------------------------------

theorem bare_base64e : base64e.Bare := bare_unary fun _ _ => bind (ask _) fun _ => new _

theorem bare_base64d : base64d.Bare := by
  refine bare_unary fun _ _ => bind (ask _) fun _ => ?_
  split
  · exact refuse _
  · split
    · exact refuse _
    · exact new _

theorem bare_parse : parse.Bare := by
  refine bare_binary fun _ _ => bind (ask _) fun _ => ?_
  split
  · exact throw rfl
  · refine bind (ask _) fun _ => ?_
    split
    · exact throw rfl
    · exact modifyGet _

theorem bare_readFile (files : FileSystem) : (readFile files).Bare := by
  refine bare_unary fun _ _ => bind (ask _) fun _ => ?_
  split
  · exact new _
  · exact throw rfl

end Builtin

theorem Registry.builtins_bare {files : FileSystem} {name : String} {f : Function}
    (h : (Registry.builtins files).find? name = some f) : f.Bare := by
  have hmem := Dict.mem_of_find?_ofList h
  simp only [Builtin.numeric, Builtin.conversions, Builtin.collections, Builtin.encodings,
    List.cons_append, List.nil_append, List.map_cons, List.map_nil, List.mem_cons, Prod.mk.injEq,
    List.not_mem_nil, or_false] at hmem
  rcases hmem with ⟨-, rfl⟩ | ⟨-, rfl⟩ | ⟨-, rfl⟩ | ⟨-, rfl⟩ | ⟨-, rfl⟩ |
    ⟨-, rfl⟩ | ⟨-, rfl⟩ | ⟨-, rfl⟩ | ⟨-, rfl⟩ | ⟨-, rfl⟩ | ⟨-, rfl⟩ |
    ⟨-, rfl⟩ | ⟨-, rfl⟩ | ⟨-, rfl⟩ | ⟨-, rfl⟩ | ⟨-, rfl⟩ | ⟨-, rfl⟩ |
    ⟨-, rfl⟩ | ⟨-, rfl⟩ | ⟨-, rfl⟩
  · exact Builtin.bare_len
  · exact Builtin.bare_variadic fun _ _ _ => Builtin.bare_total _ _
  · exact Builtin.bare_variadic fun _ _ _ => Builtin.bare_total _ _
  · exact Builtin.bare_variadic fun _ _ _ => Builtin.bare_extreme _ _ _ _
  · exact Builtin.bare_variadic fun _ _ _ => Builtin.bare_extreme _ _ _ _
  · exact Builtin.bare_unary fun _ _ => Builtin.bare_convert _ _ _
  · exact Builtin.bare_unary fun _ _ => Builtin.bare_convert _ _ _
  · exact Builtin.bare_unary fun _ _ => Builtin.bare_convert _ _ _
  · exact Builtin.bare_typeOf
  · exact Builtin.bare_has
  · exact Builtin.bare_unary fun _ _ => Builtin.bare_lookUp _ _
  · exact Builtin.bare_contains
  · exact Builtin.bare_merge
  · exact Builtin.bare_reverse
  · exact Builtin.bare_join
  · exact Builtin.bare_ignore
  · exact Builtin.bare_base64e
  · exact Builtin.bare_base64d
  · exact Builtin.bare_parse
  · exact Builtin.bare_readFile files

end DocSelect
