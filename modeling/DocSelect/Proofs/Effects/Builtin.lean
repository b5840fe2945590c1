import DocSelect.Proofs.Effects.Basic

/-!
# Effects of the built-in functions

A built-in function adds nodes without marks, and copies; only the one that marks its subject as
ignored does more. None of them changes what a node holds.
-/
namespace DocSelect

namespace Store

section
variable {T : Store → Store → Prop} (hT : Lenient T)
include hT

mutual

theorem Lenient.build : (c : Content) → (s : Store) → T s (s.build c).2
  | .scalar _, s => hT.new s _
  | .slice items, s => hT.trans (buildItems items s) (hT.new _ _)
  | .map entries, s => hT.trans (buildEntries entries s) (hT.new _ _)

theorem Lenient.buildItems : (cs : List Content) → (s : Store) → T s (s.buildItems cs).2
  | [], s => hT.refl s
  | c :: cs, s => hT.trans (build c s) (buildItems cs _)

theorem Lenient.buildEntries : (es : List (String × Content)) → (s : Store) →
    T s (s.buildEntries es).2
  | [], s => hT.refl s
  | (_, c) :: es, s => hT.trans (build c s) (buildEntries es _)

end

end

mutual

theorem touches_plant : (t : Tree) → (s : Store) → s.Touches (s.plant t).2
  | .scalar .., s => .single (.add s _)
  | .slice _ _ items, s => (touches_plantItems items s).tail (.add _ _)
  | .map _ _ entries, s => (touches_plantEntries entries s).tail (.add _ _)

theorem touches_plantItems : (ts : List Tree) → (s : Store) → s.Touches (s.plantItems ts).2
  | [], _ => .refl
  | t :: ts, s => (touches_plant t s).trans (touches_plantItems ts _)

theorem touches_plantEntries : (es : List (String × Tree)) → (s : Store) →
    s.Touches (s.plantEntries es).2
  | [], _ => .refl
  | (_, t) :: es, s => (touches_plant t s).trans (touches_plantEntries es _)

end

theorem Lenient.touches : Lenient Touches where
  refl _ := .refl
  trans := .trans
  new s _ := .single (s.touch_new _)
  copy s r := s.touches_plant (s.tree r)

end Store

def Function.Gentle (f : Function) : Prop := ∀ subject arguments, (f.run subject arguments).Gentle

namespace Builtin

variable {T : Store → Store → Prop} (hT : Store.Lenient T)
include hT

open Action.Leads (pure throw refuse read ask new deepCopy bind)

def Leads (T : Store → Store → Prop) (f : Function) : Prop :=
  ∀ subject arguments, (f.run subject arguments).Leads T

theorem leads_unary {name : String} {run : Ref → Ref → Action Ref}
    (h : ∀ subject argument, (run subject argument).Leads T) : Leads T (.unary name run) := by
  intro subject arguments
  match arguments with
  | [] => exact throw hT _
  | [a] => exact h subject a
  | _ :: _ :: _ => exact throw hT _

theorem leads_binary {name : String} {run : Ref → Ref → Action Ref}
    (h : ∀ first second, (run first second).Leads T) : Leads T (.binary name run) := by
  intro subject arguments
  match arguments with
  | [] => exact throw hT _
  | [_] => exact throw hT _
  | [a, b] => exact h a b
  | _ :: _ :: _ :: _ => exact throw hT _

theorem leads_variadic {name : String} {run : Ref → Ref → List Ref → Action Ref}
    (h : ∀ subject first rest, (run subject first rest).Leads T) :
    Leads T (.variadic name run) := by
  intro subject arguments
  cases arguments with
  | nil => exact throw hT _
  | cons first rest => exact h subject first rest

-- ---------------------------------------------------------------------------
-- Numbers
-- ---------------------------------------------------------------------------

theorem leads_len : Leads T len := leads_unary hT fun _ _ => bind hT (ask hT _) fun _ => new hT _

theorem leads_expectNumbers (function : String) (arguments : List Ref) :
    (expectNumbers function arguments).Leads T := by
  induction arguments with
  | nil => exact pure hT ()
  | cons a rest ih =>
    refine bind hT (read hT _) fun kind => ?_
    split
    · exact ih
    · exact refuse hT _

theorem leads_total (function : String) (arguments : List Ref) :
    (total function arguments).Leads T :=
  bind hT (leads_expectNumbers hT function arguments) fun _ => bind hT (ask hT _) fun _ => new hT _

theorem leads_extreme (function : String) (wins : Ordering) (first : Ref) (rest : List Ref) :
    (extreme function wins first rest).Leads T := by
  refine bind hT (leads_expectNumbers hT function _) fun _ => bind hT (.get hT) fun s => ?_
  dsimp only
  split
  · split
    · exact new hT _
    · exact deepCopy hT _
  · exact deepCopy hT _

-- ---------------------------------------------------------------------------
-- Conversions
-- ---------------------------------------------------------------------------

theorem leads_convert (target : Kind) (f : Scalar → Except ArgumentProblem Data) (r : Ref) :
    (convert target f r).Leads T := by
  refine bind hT (read hT _) fun d => ?_
  split
  · split
    · exact new hT _
    · exact refuse hT _
  · exact refuse hT _

theorem leads_typeOf : Leads T typeOf :=
  leads_unary hT fun _ _ => bind hT (read hT _) fun _ => new hT _

-- ---------------------------------------------------------------------------
-- Collections
-- ---------------------------------------------------------------------------

theorem leads_has : Leads T has := leads_unary hT fun _ _ => bind hT (read hT _) fun _ => new hT _

theorem leads_lookUp (subject key : Ref) : (lookUp subject key).Leads T := by
  refine bind hT (.get hT) fun s => ?_
  split
  · exact ask hT _
  · exact ask hT _
  · exact new hT _
  · exact new hT _
  · exact throw hT _

theorem leads_contains : Leads T contains :=
  leads_unary hT fun _ _ => bind hT (ask hT _) fun _ => bind hT (read hT _) fun _ => new hT _

theorem leads_merge : Leads T merge := by
  refine leads_variadic hT fun _ _ _ => bind hT (read hT _) fun merged => ?_
  split
  · exact new hT _
  · exact refuse hT _

theorem leads_reverse : Leads T reverse := by
  refine leads_unary hT fun _ _ => bind hT (read hT _) fun kind => ?_
  split
  · exact bind hT (ask hT _) fun _ => new hT _
  · exact refuse hT _

theorem leads_join : Leads T join := by
  refine leads_variadic hT fun _ _ _ => bind hT (ask hT _) fun _ => bind hT (ask hT _) fun _ => ?_
  refine bind hT (read hT _) fun texts => ?_
  split
  · exact new hT _
  · exact refuse hT _

omit hT in
theorem gentle_ignore : ignore.Gentle := fun subject _ s => .single (.ignore s subject)

-- ---------------------------------------------------------------------------
-- Encodings
-- ---------------------------------------------------------------------------

theorem leads_base64e : Leads T base64e :=
  leads_unary hT fun _ _ => bind hT (ask hT _) fun _ => new hT _

theorem leads_base64d : Leads T base64d := by
  refine leads_unary hT fun _ _ => bind hT (ask hT _) fun _ => ?_
  split
  · exact refuse hT _
  · split
    · exact refuse hT _
    · exact new hT _

theorem leads_parse : Leads T parse := by
  refine leads_binary hT fun _ _ => bind hT (ask hT _) fun _ => ?_
  split
  · exact throw hT _
  · refine bind hT (ask hT _) fun _ => ?_
    split
    · exact throw hT _
    · exact hT.build _

theorem leads_readFile (files : FileSystem) : Leads T (readFile files) := by
  refine leads_unary hT fun _ _ => bind hT (ask hT _) fun _ => ?_
  split
  · exact new hT _
  · exact throw hT _

end Builtin

-- ---------------------------------------------------------------------------
-- The registry
-- ---------------------------------------------------------------------------

theorem Registry.builtins_lead {T : Store → Store → Prop} (hT : Store.Lenient T)
    {files : FileSystem} {name : String} {f : Function}
    (h : (Registry.builtins files).find? name = some f) :
    Builtin.Leads T f ∨ name = "ignore" ∧ f = Builtin.ignore := by
  have hmem := Dict.mem_of_find?_ofList h
  simp only [Builtin.numeric, Builtin.conversions, Builtin.collections, Builtin.encodings,
    List.cons_append, List.nil_append, List.map_cons, List.map_nil, List.mem_cons, Prod.mk.injEq,
    List.not_mem_nil, or_false] at hmem
  rcases hmem with ⟨-, rfl⟩ | ⟨-, rfl⟩ | ⟨-, rfl⟩ | ⟨-, rfl⟩ | ⟨-, rfl⟩ |
    ⟨-, rfl⟩ | ⟨-, rfl⟩ | ⟨-, rfl⟩ | ⟨-, rfl⟩ | ⟨-, rfl⟩ | ⟨-, rfl⟩ |
    ⟨-, rfl⟩ | ⟨-, rfl⟩ | ⟨-, rfl⟩ | ⟨-, rfl⟩ | ⟨rfl, rfl⟩ | ⟨-, rfl⟩ |
    ⟨-, rfl⟩ | ⟨-, rfl⟩ | ⟨-, rfl⟩
  · exact .inl (Builtin.leads_len hT)
  · exact .inl (Builtin.leads_variadic hT fun _ _ _ => Builtin.leads_total hT _ _)
  · exact .inl (Builtin.leads_variadic hT fun _ _ _ => Builtin.leads_total hT _ _)
  · exact .inl (Builtin.leads_variadic hT fun _ _ _ => Builtin.leads_extreme hT _ _ _ _)
  · exact .inl (Builtin.leads_variadic hT fun _ _ _ => Builtin.leads_extreme hT _ _ _ _)
  · exact .inl (Builtin.leads_unary hT fun _ _ => Builtin.leads_convert hT _ _ _)
  · exact .inl (Builtin.leads_unary hT fun _ _ => Builtin.leads_convert hT _ _ _)
  · exact .inl (Builtin.leads_unary hT fun _ _ => Builtin.leads_convert hT _ _ _)
  · exact .inl (Builtin.leads_typeOf hT)
  · exact .inl (Builtin.leads_has hT)
  · exact .inl (Builtin.leads_unary hT fun _ _ => Builtin.leads_lookUp hT _ _)
  · exact .inl (Builtin.leads_contains hT)
  · exact .inl (Builtin.leads_merge hT)
  · exact .inl (Builtin.leads_reverse hT)
  · exact .inl (Builtin.leads_join hT)
  · exact .inr ⟨rfl, rfl⟩
  · exact .inl (Builtin.leads_base64e hT)
  · exact .inl (Builtin.leads_base64d hT)
  · exact .inl (Builtin.leads_parse hT)
  · exact .inl (Builtin.leads_readFile hT files)

theorem Registry.builtins_gentle (files : FileSystem) {name : String} {f : Function}
    (h : (Registry.builtins files).find? name = some f) : f.Gentle := by
  rcases Registry.builtins_lead Store.Lenient.touches h with hf | ⟨-, rfl⟩
  · exact hf
  · exact Builtin.gentle_ignore

end DocSelect
