import DocSelect.Proofs.Frame
import DocSelect.Proofs.Listing
import DocSelect.Proofs.Objects.Keys
import DocSelect.Proofs.Turns

/-!
# Objects and merged maps

An object takes up its entries one after the other: all entries of a map, or a key with a node. The
function that merges maps does the same with maps that have all been evaluated before the first of
them is taken up. So the two agree as long as no map is changed by an expression after it, and none
is marked as a spread or a branch, which a call takes apart.
-/
namespace DocSelect

inductive Contribution where
  /-- the entries of a map, and the node with the map as it was then -/
  | spread (source : Ref) (node : Node)
  | pair (key : String) (value : Ref)

namespace Contribution

def entries : Contribution → List (String × Ref)
  | spread _ node =>
    match node.data with
    | .map d => d.entries
    | _ => []
  | pair key value => [(key, value)]

theorem entries_spread {source : Ref} {node : Node} {d : Dict Ref} (h : node.data = .map d) :
    (spread source node).entries = d.entries := by
  rw [entries, h]

def keys (c : Contribution) : List String := Assoc.keys c.entries

def ref : Contribution → Ref
  | spread source _ => source
  | pair _ value => value

def Kept (s : Store) : Contribution → Prop
  | spread source node => s.data source = node.data
  | pair .. => True

def Unmarked : Contribution → Prop
  | spread _ node => node.marks.spread = false ∧ node.marks.branch = false
  | pair .. => True

end Contribution

namespace Session

/-- An entry is evaluated without an error, and adds this. What becomes part of an object is no
spread. -/
inductive Supplied (settings : Settings) (subject : Ref) :
    Session → ObjectEntry → Contribution → Session → Prop
  | subject {σ : Session} {d : Dict Ref} (hmap : σ.store.data subject = .map d) :
    Supplied settings subject σ (.spread none) (.spread subject (σ.store.node subject)) σ
  | spread {σ τ : Session} {m : Expr} {source : Ref} {d : Dict Ref}
    (hm : evaluate settings m subject σ = (.ok source, τ))
      (hmap : τ.store.data source = .map d) :
    Supplied settings subject σ (.spread (some m)) (.spread source (τ.store.node source)) τ
  | pair {σ τ υ : Session} {key value : Expr} {k v : Ref} {name : String}
    (hkey : evaluate settings key subject σ = (.ok k, τ)) (hname : τ.store.data k = .string name)
    (hvalue : evaluate settings value subject τ = (.ok v, υ)) :
    Supplied settings subject σ (.pair key value) (.pair name v)
      { υ with store := υ.store.clearSpread v }

inductive Supplies (settings : Settings) (subject : Ref) :
    Session → List ObjectEntry → List Contribution → Session → Prop
  | nil (σ : Session) : Supplies settings subject σ [] [] σ
  | cons {σ τ υ : Session} {e : ObjectEntry} {es : List ObjectEntry} {c : Contribution}
    {cs : List Contribution} (hfirst : Supplied settings subject σ e c τ)
    (hrest : Supplies settings subject τ es cs υ) : Supplies settings subject σ
      (e :: es) (c :: cs) υ

end Session

variable {settings : Settings} {subject : Ref} {σ τ υ : Session} {entries : List ObjectEntry}
  {cs : List Contribution} {d object : Dict Ref}

-- ---------------------------------------------------------------------------
-- Taking up entries
-- ---------------------------------------------------------------------------

namespace Step

theorem exec_ask_entries_iff {r : Ref} :
    (Eval.ask (·.entries? r)).exec settings σ = (.ok d, τ) ↔
    σ.store.data r = .map d ∧ σ = τ := by
  rw [Eval.exec_ask]
  unfold Store.entries?
  split <;> rename_i hdata
  · simp [Except.mapError, hdata]
  · simpa [Except.mapError, Store.unexpected] using fun hmap => absurd hmap (hdata d)

theorem exec_takeUp_iff {r : Ref} : (do
      let entries ← Eval.ask (·.entries? r)
      return object.insertAll entries.entries : Eval (Dict Ref)).exec settings σ = (.ok d, τ) ↔
    σ = τ ∧ ∃ e, σ.store.data r = .map e ∧ d = object.insertAll e.entries := by
  rw [Eval.exec_bind_eq_ok_iff]
  simp only [exec_ask_entries_iff, Eval.exec_pure, Prod.mk.injEq, Except.ok.injEq]
  grind

theorem exec_addTo_iff {e : ObjectEntry} :
    ((Expr.denoteEntry e).addTo object subject).exec settings σ = (.ok d, τ) ↔
      ∃ c, σ.Supplied settings subject e c τ ∧ d = object.insertAll c.entries := by
  cases e with
  | spread source =>
    cases source with
    | none =>
      rw [Expr.denoteEntry, Expr.denoteOption, Entry.addTo, Eval.exec_bind_eq_ok_iff]
      constructor
      · rintro ⟨_, _, hpure, hrest⟩
        rw [Eval.exec_pure] at hpure
        cases hpure
        obtain ⟨rfl, e, hmap, rfl⟩ := exec_takeUp_iff.1 hrest
        exact ⟨_, .subject hmap, by rw [Contribution.entries_spread hmap]⟩
      · rintro ⟨_, ⟨hmap⟩, rfl⟩
        exact ⟨subject, σ, rfl, exec_takeUp_iff.2
          ⟨rfl, _, hmap, by rw [Contribution.entries_spread hmap]⟩⟩
    | some m =>
      rw [Expr.denoteEntry, Expr.denoteOption, Entry.addTo, Eval.exec_bind_eq_ok_iff]
      constructor
      · rintro ⟨source, υ, hm, hrest⟩
        obtain ⟨rfl, e, hmap, rfl⟩ := exec_takeUp_iff.1 hrest
        exact ⟨_, .spread hm hmap, by rw [Contribution.entries_spread hmap]⟩
      · rintro ⟨_, h, rfl⟩
        cases h with
        | spread hm hmap =>
          exact ⟨_, τ, hm, exec_takeUp_iff.2 ⟨rfl, _, hmap,
            by rw [Contribution.entries_spread hmap]⟩⟩
  | pair key value =>
    rw [Expr.denoteEntry, Entry.addTo, Eval.exec_bind_eq_ok_iff]
    constructor
    · rintro ⟨k, υ, hkey, hrest⟩
      rw [Eval.exec_bind, Eval.exec_read] at hrest
      dsimp only at hrest
      split at hrest
      · rename_i name hname
        obtain ⟨v, ω, hvalue, hrest⟩ := Eval.exec_bind_eq_ok_iff.1 hrest
        cases hrest
        exact ⟨_, .pair hkey hname hvalue, rfl⟩
      · cases hrest
    · rintro ⟨_, h, rfl⟩
      cases h with
      | pair hkey hname hvalue =>
        refine ⟨_, _, hkey, ?_⟩
        rw [Eval.exec_bind, Eval.exec_read, hname]
        exact Eval.exec_bind_eq_ok_iff.2 ⟨_, _, hvalue, rfl⟩

theorem exec_addEntries_iff :
    (addEntries object (Expr.denoteEntries entries) subject).exec settings σ = (.ok d, τ) ↔
      ∃ cs, σ.Supplies settings subject entries cs τ ∧
        d = object.insertAll (cs.flatMap Contribution.entries) := by
  induction entries generalizing object σ with
  | nil =>
    rw [Expr.denoteEntries, addEntries, Eval.exec_pure]
    constructor
    · rintro ⟨⟩
      exact ⟨[], .nil _, rfl⟩
    · rintro ⟨_, ⟨⟩, rfl⟩
      rfl
  | cons e es ih =>
    rw [Expr.denoteEntries, addEntries, Eval.exec_bind_eq_ok_iff]
    constructor
    · rintro ⟨object', υ, hfirst, hrest⟩
      obtain ⟨c, hc, rfl⟩ := exec_addTo_iff.1 hfirst
      obtain ⟨cs, hcs, rfl⟩ := ih.1 hrest
      exact ⟨c :: cs, .cons hc hcs, (Dict.insertAll_append _ _ _).symm⟩
    · rintro ⟨_, h, rfl⟩
      cases h with
      | cons hc hcs =>
        refine ⟨_, _, exec_addTo_iff.2 ⟨_, hc, rfl⟩, ih.2 ⟨_, hcs, ?_⟩⟩
        rw [List.flatMap_cons, Dict.insertAll_append]

end Step

/-- An object literal gives an object if its entries are evaluated without an error. It is a new
node with all that they add, and nothing else is changed. -/
theorem evaluate_object_iff {r : Ref} (h : σ.store.isBranch subject = false) :
    evaluate settings (.object entries) subject σ = (.ok r, τ) ↔
      ∃ cs υ, σ.Supplies settings subject entries cs υ ∧
        (Eval.new (.map (Dict.ofList (cs.flatMap Contribution.entries)))).exec settings υ =
          (.ok r, τ) := by
  rw [evaluate_eq_ok_iff _ h, Expr.denote, Step.object, Eval.exec_bind_eq_ok_iff]
  constructor
  · rintro ⟨d, υ, hentries, hnew⟩
    obtain ⟨cs, hcs, rfl⟩ := Step.exec_addEntries_iff.1 hentries
    exact ⟨cs, υ, hcs, hnew⟩
  · rintro ⟨cs, υ, hcs, hnew⟩
    exact ⟨_, υ, Step.exec_addEntries_iff.2 ⟨cs, hcs, rfl⟩, hnew⟩

-- ---------------------------------------------------------------------------
-- What the evaluation of entries leaves alone
-- ---------------------------------------------------------------------------

theorem Store.known_of_map {s : Store} {r : Ref} (h : s.data r = .map d) : s.Known r := by
  by_contra hr
  have hnone : s.nodes[r.index]? = none := Array.getElem?_eq_none (Nat.le_of_not_lt hr)
  rw [Store.data, Store.node, hnone] at h
  cases h

section

variable (hg : settings.Gentle) {e : ObjectEntry} {c : Contribution}
include hg

theorem Session.Supplied.later (h : σ.Supplied settings subject e c τ)
    (he : Expr.allEntry (fun part => !part.isAssign) e = true) : σ.Later τ := by
  have hlater {e : Expr} {r : Ref} {σ τ : Session} (he : e.assignFree = true)
      (h : evaluate settings e subject σ = (.ok r, τ)) : σ.Later τ := by
    have hleads := evaluate_leads_of_assignFree Session.Later.tolerant hg he subject σ
    rwa [h] at hleads
  cases h with
  | subject => exact .refl _
  | spread hm => exact hlater he hm
  | pair hkey hname hvalue =>
    simp only [Expr.allEntry, Bool.and_eq_true] at he
    exact ((hlater he.1 hkey).trans (hlater he.2 hvalue)).trans
      (Session.Later.tolerant.touch _ (.clearSpread _ _))

theorem Session.Supplies.later (h : σ.Supplies settings subject entries cs υ)
    (he : Expr.allEntries (fun part => !part.isAssign) entries = true) : σ.Later υ := by
  induction h with
  | nil => exact .refl _
  | cons hfirst _ ih =>
    simp only [Expr.allEntries, Bool.and_eq_true] at he
    exact (hfirst.later hg he.1).trans (ih he.2)

theorem Session.Supplies.kept {ω : Session} (h : σ.Supplies settings subject entries cs υ)
    (he : Expr.allEntries (fun part => !part.isAssign) entries = true) (hω : υ.Later ω) :
    ∀ c ∈ cs, c.Kept ω.store := by
  induction h with
  | nil => exact fun c hc => absurd hc List.not_mem_nil
  | cons hfirst hrest ih =>
    simp only [Expr.allEntries, Bool.and_eq_true] at he
    refine List.forall_mem_cons.2 ⟨?_, ih he.2 hω⟩
    have hlater := (hrest.later hg he.2).trans hω
    cases hfirst with
    | subject hmap => exact (hlater.node _ (Store.known_of_map hmap)).data
    | spread _ hmap => exact (hlater.node _ (Store.known_of_map hmap)).data
    | pair => trivial

end

-- ---------------------------------------------------------------------------
-- Merging
-- ---------------------------------------------------------------------------

def spreads (ms : List Expr) : List ObjectEntry := ms.map fun m => .spread (some m)

theorem allEntries_spreads {test : Expr → Bool} {ms : List Expr}
    (h : ∀ m ∈ ms, m.all test = true) : Expr.allEntries test (spreads ms) = true := by
  induction ms with
  | nil => rfl
  | cons m ms ih =>
    rw [List.forall_mem_cons] at h
    exact Bool.and_eq_true _ _ ▸ ⟨h.1, ih h.2⟩

def Contribution.IsMap (c : Contribution) : Prop :=
  ∃ source node d, c = spread source node ∧ node.data = .map d

theorem Session.Supplies.isMap {ms : List Expr}
    (h : σ.Supplies settings subject (spreads ms) cs υ) : ∀ c ∈ cs, c.IsMap := by
  induction ms generalizing σ cs with
  | nil =>
    cases h
    exact fun c hc => absurd hc List.not_mem_nil
  | cons m ms ih =>
    cases h with
    | cons hfirst hrest =>
      refine List.forall_mem_cons.2 ⟨?_, ih hrest⟩
      cases hfirst with
      | spread _ hmap => exact ⟨_, _, _, rfl, hmap⟩

theorem Contribution.Unmarked.passed {s : Store} {source : Ref}
    (h : (Contribution.spread source (s.node source)).Unmarked) :
    s.passed source = .ok [source] := by
  obtain ⟨hspread, hbranch⟩ : s.isSpread source = false ∧ s.isBranch source = false := h
  rw [Store.passed, hspread, hbranch]
  rfl

theorem Session.Supplies.exec_gather {ms : List Expr}
    (h : σ.Supplies settings subject (spreads ms) cs υ) (hplain : ∀ c ∈ cs, c.Unmarked) :
    (Step.gather Store.passed (ms.map Expr.step) subject).exec settings σ =
      (.ok (cs.map Contribution.ref), υ) := by
  induction ms generalizing σ cs with
  | nil =>
    cases h
    rfl
  | cons m ms ih =>
    cases h with
    | cons hfirst hrest =>
      rw [List.forall_mem_cons] at hplain
      cases hfirst with
      | spread hm =>
        rw [List.map_cons, Step.exec_gather_cons, ← evaluate_eq_exec, hm]
        simp only [hplain.1.passed, ih hrest hplain.2, List.singleton_append, List.map_cons,
          Contribution.ref]

theorem mergeAll_of_kept {s : Store} (hmaps : ∀ c ∈ cs, c.IsMap)
    (hkept : ∀ c ∈ cs, c.Kept s)
    (merged : Dict Ref) : Builtin.mergeAll s merged (cs.map Contribution.ref) =
      .ok (merged.insertAll (cs.flatMap Contribution.entries)) := by
  induction cs generalizing merged with
  | nil => rfl
  | cons c cs ih =>
    rw [List.forall_mem_cons] at hmaps hkept
    obtain ⟨⟨source, node, d, rfl, hd⟩, hmaps⟩ := hmaps
    obtain ⟨hhere, hkept⟩ := hkept
    have hdata : s.data source = .map d := Eq.trans hhere hd
    rw [List.map_cons, Contribution.ref, Builtin.mergeAll, hdata]
    simp only [ih hmaps hkept, List.flatMap_cons, Contribution.entries_spread hd,
      Dict.insertAll_append]

/-- Maps that are unmarked, and unchanged when all have been evaluated, are merged as an object
takes them up. -/
theorem evaluate_merge {ms : List Expr}
    (hmerge : settings.functions.find? "merge" = some Builtin.merge)
    (hs : σ.store.isBranch subject = false) (hms : ms ≠ [])
    (h : σ.Supplies settings subject (spreads ms) cs υ) (hplain : ∀ c ∈ cs, c.Unmarked)
    (hkept : ∀ c ∈ cs, c.Kept υ.store) :
    evaluate settings (.call "merge" ms) subject σ =
      (Eval.new (.map (Dict.ofList (cs.flatMap Contribution.entries)))).exec settings υ := by
  obtain ⟨first, rest, hargs⟩ : ∃ first rest, cs.map Contribution.ref = first :: rest := by
    obtain ⟨m, ms, rfl⟩ := List.exists_cons_of_ne_nil hms
    cases h
    exact ⟨_, _, rfl⟩
  have hmerged := mergeAll_of_kept h.isMap hkept Dict.empty
  rw [hargs] at hmerged
  have hrun : (Builtin.merge.call subject (first :: rest)).exec υ.store =
      (.ok (υ.store.new (.map (Dict.ofList (cs.flatMap Contribution.entries)))).1,
        (υ.store.new (.map (Dict.ofList (cs.flatMap Contribution.entries)))).2) := by
    have hcall : Builtin.merge.call subject (first :: rest) =
        Builtin.merge.run subject (first :: rest) :=
      if_pos (by simp [Builtin.merge, Function.variadic, Arity.accepts])
    rw [hcall]
    simp only [Builtin.merge, Function.variadic, Action.exec_bind, Action.exec_read, hmerged,
      Action.exec_new]
    rfl
  rw [evaluate_call hs hmerge, h.exec_gather hplain, hargs]
  dsimp only
  rw [exec_within, Function.apply, Eval.exec_tryCatch, Eval.exec_act, hrun]
  rfl

-- ---------------------------------------------------------------------------
-- Objects and merged maps together
-- ---------------------------------------------------------------------------

/-- A dictionary of all that was added: keys in the order in which they first came, each with the
last node. -/
structure Dict.Collects (d : Dict Ref) (cs : List Contribution) : Prop where
  keys : d.keys = (cs.flatMap Contribution.keys).eraseDups
  nodup : d.keys.Nodup
  mem_keys {k : String} : k ∈ d.keys ↔ ∃ c ∈ cs, k ∈ c.keys
  find? (k : String) : d.find? k = Assoc.lastOf k (cs.flatMap Contribution.entries)

theorem Dict.collects_ofList (cs : List Contribution) :
    (Dict.ofList (cs.flatMap Contribution.entries)).Collects cs := by
  have hkeys : (Dict.ofList (cs.flatMap Contribution.entries)).keys =
      (cs.flatMap Contribution.keys).eraseDups := by
    rw [Dict.keys_ofList, Assoc.keys, List.map_flatMap]
    rfl
  refine ⟨hkeys, Dict.nodup _, ?_, Dict.find?_ofList _⟩
  intro k
  rw [hkeys, List.mem_eraseDups, List.mem_flatMap]

theorem evaluate_object_of_supplies (h : σ.Supplies settings subject entries cs υ)
    (hs : σ.store.isBranch subject = false) : evaluate settings (.object entries) subject σ =
      (Eval.new (.map (Dict.ofList (cs.flatMap Contribution.entries)))).exec settings υ :=
  (evaluate_object_iff hs).2 ⟨cs, υ, h, rfl⟩

theorem evaluate_object_ok_iff (hs : σ.store.isBranch subject = false) :
    (∃ r τ, evaluate settings (.object entries) subject σ = (.ok r, τ)) ↔
      ∃ cs υ, σ.Supplies settings subject entries cs υ := by
  constructor
  · rintro ⟨r, τ, hrun⟩
    obtain ⟨cs, υ, h, -⟩ := (evaluate_object_iff hs).1 hrun
    exact ⟨cs, υ, h⟩
  · rintro ⟨cs, υ, h⟩
    exact ⟨_, _, evaluate_object_of_supplies h hs⟩

/-- All these expressions give maps that a call takes as they are, and that are the same when the
last of them has been evaluated. -/
def Session.Mergeable (settings : Settings) (subject : Ref) (σ : Session) (ms : List Expr) :
    Prop :=
  ∃ cs υ, σ.Supplies settings subject (spreads ms) cs υ ∧ (∀ c ∈ cs, c.Unmarked) ∧
    ((∀ m ∈ ms, m.assignFree = true) ∨ ∀ c ∈ cs, c.Kept υ.store)

theorem Session.Mergeable.evaluate_eq {ms : List Expr} (h : σ.Mergeable settings subject ms)
    (hg : settings.Gentle) (hmerge : settings.functions.find? "merge" = some Builtin.merge)
    (hms : ms ≠ []) (hs : σ.store.isBranch subject = false) :
    evaluate settings (.call "merge" ms) subject σ =
      evaluate settings (.object (spreads ms)) subject σ := by
  obtain ⟨cs, υ, h, hunmarked, hkept⟩ := h
  rw [evaluate_object_of_supplies h hs]
  refine evaluate_merge hmerge hs hms h hunmarked ?_
  exact hkept.elim (fun hfree => h.kept hg (allEntries_spreads hfree) (.refl υ)) id

theorem Registry.find?_merge (files : FileSystem) :
    (Registry.builtins files).find? "merge" = some Builtin.merge := by
  rfl

/-- The entries of an object are taken up one after the other, and a call that merges maps gives the
same object as their spreads: if no map is marked as a spread or a branch, and none is changed after
it was evaluated, as without assignments. Nothing but what the entries do themselves changes a node
that was there. On a branch, this holds of each turn. -/
theorem objects_collect_entries (files : FileSystem) (environment : Environment) (limit : Nat) :
    let settings : Settings := ⟨Registry.builtins files, environment, limit⟩
    (∀ (σ : Session) (subject : Ref), σ.store.isBranch subject = false →
      (∀ entries : List ObjectEntry,
        (∃ r τ, evaluate settings (.object entries) subject σ = (.ok r, τ)) ↔
          ∃ cs υ, σ.Supplies settings subject entries cs υ) ∧
      (∀ (entries : List ObjectEntry) (cs : List Contribution) (υ : Session),
        σ.Supplies settings subject entries cs υ → ∃ d : Dict Ref, d.Collects cs ∧
          evaluate settings (.object entries) subject σ =
            (.ok (υ.store.new (.map d)).1, { υ with store := (υ.store.new (.map d)).2 }) ∧
          (∀ r, υ.store.Known r → (υ.store.new (.map d)).2.node r = υ.store.node r) ∧
          ((Expr.object entries).assignFree = true →
            ∀ c ∈ cs, c.Kept (υ.store.new (.map d)).2)) ∧
      ∀ ms : List Expr, ms ≠ [] → σ.Mergeable settings subject ms →
        evaluate settings (.call "merge" ms) subject σ =
          evaluate settings (.object (spreads ms)) subject σ) ∧
    ∀ (σ : Session) (subject : Ref), σ.Met settings → σ.store.Known subject →
      (∀ entries : List ObjectEntry,
        (∃ r τ, evaluate settings (.object entries) subject σ = (.ok r, τ)) ↔
        ∀ ρ r, σ.Turn settings (.object entries) subject ρ r →
          ∃ cs υ, ρ.Supplies settings r entries cs υ) ∧
      ∀ ms : List Expr, ms ≠ [] →
        (∀ ρ r, σ.Turn settings (.object (spreads ms)) subject ρ r →
          ρ.Mergeable settings r ms) →
        evaluate settings (.call "merge" ms) subject σ =
          evaluate settings (.object (spreads ms)) subject σ := by
  intro settings
  have hs := Settings.keeping_builtins .soundness files environment limit
  have hg : settings.Gentle := Settings.gentle_builtins files environment limit
  have hmerge : settings.functions.find? "merge" = some Builtin.merge := Registry.find?_merge files
  constructor
  · intro σ subject hsingle
    refine ⟨fun entries => evaluate_object_ok_iff hsingle, fun entries cs υ h => ?_,
      fun ms hms h => h.evaluate_eq hg hmerge hms hsingle⟩
    refine ⟨_, Dict.collects_ofList cs, evaluate_object_of_supplies h hsingle,
      fun r hr => υ.store.node_add_of_lt _ hr, fun hfree => ?_⟩
    rw [Expr.assignFree, Expr.all, Bool.and_eq_true] at hfree
    exact h.kept hg hfree.2 (Session.Later.tolerant.touch _ (.add _ _))
  · intro σ subject hσ hsub
    have hsound := hσ.sound hs
    have hsingle {ρ : Session} {e : Expr} {r : Ref} (hturn : σ.Turn settings e subject ρ r) :
        ρ.store.isBranch r = false := (hturn.sound hs hsound hsub).2.2.not_branch
    refine ⟨fun entries => ?_, fun ms hms h => ?_⟩
    · rw [evaluate_ok_iff_turns hs hsound hsub]
      exact forall_congr' fun ρ => forall_congr' fun r => forall_congr' fun hturn =>
        evaluate_object_ok_iff (hsingle hturn)
    · exact evaluate_congr_of_turns hs hsound hsub fun ρ r hturn =>
        (h ρ r hturn).evaluate_eq hg hmerge hms (hsingle hturn)

def keysOf? (outcome : Except EvalError Ref × Session) : Option (List String) :=
  match outcome with
  | (.ok r, τ) =>
    match τ.store.data r with
    | .map d => some d.keys
    | _ => none
  | _ => none

/-- A document merged with a variable that has a key in common with it, by itself and as the only
element of a branch. -/
theorem objects_collect_entries_variable :
    let settings : Settings := ⟨Registry.builtins FileSystem.bare, fun _ => none, 10⟩
    let start := Session.start (.map [("a", .int 1), ("b", .int 2)])
      [("x", .map [("c", .null), ("a", .int 3)])]
    let element := (evaluate settings (.branch [.var "this"]) start.1 start.2).2
    let ms := [Expr.var "this", Expr.var "x"]
    (start.2.store.isBranch start.1 = false ∧ start.2.Mergeable settings start.1 ms ∧
      evaluate settings (.call "merge" ms) start.1 start.2 =
        evaluate settings (.object (spreads ms)) start.1 start.2 ∧
      keysOf? (evaluate settings (.call "merge" ms) start.1 start.2) = some ["a", "b", "c"]) ∧
    element.store.isBranch ⟨6⟩ = true ∧ element.Met settings ∧ element.store.Known ⟨6⟩ ∧
      evaluate settings (.call "merge" ms) ⟨6⟩ element =
        evaluate settings (.object (spreads ms)) ⟨6⟩ element := by
  intro settings start element ms
  have hstart := Session.Reachable.start settings (.map [("a", .int 1), ("b", .int 2)])
    [("x", .map [("c", .null), ("a", .int 3)])]
  -- in every later session the two are the same maps, and not marked
  have hmergeable {σ : Session} (hlater : start.2.Later σ) :
      σ.Mergeable settings ⟨2⟩ ms := by
    have hmap := hlater.node ⟨2⟩ (by decide)
    have hx := hlater.node ⟨5⟩ (by decide)
    have hspread {r : Ref} (h : (start.2.store.node r).Later (σ.store.node r))
        (hr : start.2.store.isSpread r = false) : σ.store.isSpread r = false :=
      Bool.eq_false_iff.2 fun hspread => Bool.eq_false_iff.1 hr (h.spread hspread)
    have hsingle : σ.store.isBranch ⟨2⟩ = false := hmap.branch
    have hthis : evaluate settings (.var "this") ⟨2⟩ σ = (.ok ⟨2⟩, σ) :=
      evaluate_ok _ hsingle rfl
    have hvar : evaluate settings (.var "x") ⟨2⟩ σ = (.ok ⟨5⟩, σ) := by
      refine evaluate_ok _ hsingle ?_
      have hfind : σ.bindings.find? "x" = some ⟨5⟩ := by
        rw [hlater.bindings]
        rfl
      rw [Expr.denote, Step.var, if_neg (by decide), Eval.exec_bind, Eval.exec_get]
      simp only [hfind]
      rfl
    exact ⟨_, σ, .cons (.spread hthis hmap.data) (.cons (.spread hvar hx.data) (.nil _)),
      List.forall_mem_cons.2 ⟨⟨hspread hmap rfl, hsingle⟩,
        List.forall_mem_singleton.2 ⟨hspread hx rfl, hx.branch⟩⟩, .inl (by decide)⟩
  have hfirst : start.2.Mergeable settings start.1 ms := hmergeable (.refl _)
  have hdocument : start.2.store.Known start.1 := Store.known_of_map rfl
  have helement : element.Met settings :=
    .reachable (@Session.Reachable.step _ _ (.evaluate (.branch [.var "this"]) start.1)
      hstart hdocument)
  have hbranch : element.store.isBranch ⟨6⟩ = true := by decide +kernel
  have hknown := Store.known_of_isBranch hbranch
  obtain ⟨hsingles, hturns⟩ := objects_collect_entries FileSystem.bare (fun _ => none) 10
  refine ⟨⟨rfl, hfirst, (hsingles start.2 start.1 rfl).2.2 ms (List.cons_ne_nil _ _) hfirst,
    by decide +kernel⟩, hbranch, helement, hknown, ?_⟩
  refine (hturns element ⟨6⟩ helement hknown).2 ms (List.cons_ne_nil _ _) fun ρ r hturn => ?_
  have hitems : element.store.turns ⟨6⟩ = [⟨2⟩] := by decide +kernel
  rw [Session.Turn, hitems] at hturn
  cases hturn with
  | here =>
    exact hmergeable (evaluate_leads_of_assignFree Session.Later.tolerant
      (Settings.gentle_builtins FileSystem.bare (fun _ => none) 10) rfl _ _)
  | later _ h => cases h

/-- Arguments are evaluated before maps are merged: a map that a later one writes into is merged as
it is then, while an object has taken up its entries before. A call takes a map apart that is marked
as a spread, and fails; an object takes up its entries. -/
theorem merge_not_object :
    let settings : Settings := ⟨Registry.builtins FileSystem.bare, fun _ => none, 10⟩
    let start := Session.start (.map [("a", .int 1)]) []
    let written : List Expr := [.var "this",
      .group (.assign (.var "this") none (.object [.pair (.string "b") (.integer 2)]))]
    let marked : List Expr := [.group (.assign (.chain [.array [.integer 1], .spread]) none
      (.object [.pair (.string "x") (.integer 1)]))]
    let (object, σ) := evaluate settings (.object (spreads written)) start.1 start.2
    let (merged, τ) := evaluate settings (.call "merge" written) start.1 start.2
    (keysOf? (object, σ) = some ["a", "b"] ∧ keysOf? (.ok start.1, σ) = some ["b"]) ∧
      keysOf? (merged, τ) = some ["b"] ∧
      keysOf? (evaluate settings (.object (spreads marked)) start.1 start.2) = some ["x"] ∧
      (evaluate settings (.call "merge" marked) start.1 start.2).1 =
        .error (.within "call" (.value (.unexpectedKind .slice .map))) := by
  exact ⟨⟨rfl, rfl⟩, rfl, rfl, rfl⟩

end DocSelect
