import DocSelect.Proofs.Effects.Basic

/-!
# Effects of steps

Each step leads to a related session if the steps that it is made of do. Only a spread, a call and
an assignment ask more of the relation.
-/
namespace DocSelect.Step.Leads

open Eval.Leads (pure throw read noteSort ask bind new newBranch clearSpread)

variable {settings : Settings} {R : Session → Session → Prop} (hR : Lenient R)
include hR

-- ---------------------------------------------------------------------------
-- Every subject
-- ---------------------------------------------------------------------------

theorem collect {f : Step} (hf : Leads settings R f) (refs : List Ref) :
    Eval.Leads settings R (collect f refs) := by
  induction refs with
  | nil => exact pure hR _
  | cons r rest ih =>
    refine bind hR (hf r) fun result => bind hR (ask hR _) fun contributed => ?_
    exact bind hR ih fun _ => pure hR _

theorem collectKept {f : Step} (hf : Leads settings R f) (refs : List Ref) :
    Eval.Leads settings R (collectKept f refs) := by
  induction refs with
  | nil => exact pure hR _
  | cons r rest ih =>
    refine bind hR (hf r) fun result => bind hR (read hR _) fun ignored => ?_
    cases ignored
    · exact bind hR (ask hR _) fun contributed => bind hR ih fun _ => pure hR _
    · exact ih

theorem within {f : Step} (node : String) (hf : Leads settings R f) :
    Leads settings R (within node f) :=
  fun subject => .tryCatch hR (hf subject) fun _ => throw hR _

theorem broadcast {f : Step} (hf : Leads settings R f) : Leads settings R (broadcast f) := by
  intro subject
  refine bind hR (read hR _) fun isBranch => ?_
  cases isBranch
  · exact hf subject
  · exact bind hR (ask hR _) fun items => bind hR (collectKept hR hf items) fun _ => newBranch hR _

theorem lift {f : Step} (e : Expr) (hf : Leads settings R f) : Leads settings R (e.lift f) :=
  broadcast hR (within hR _ hf)

theorem chain {steps : List Step} (hs : ∀ f ∈ steps, Leads settings R f) :
    Leads settings R (chain steps) := by
  induction steps with
  | nil => exact fun _ => pure hR _
  | cons f rest ih =>
    exact fun subject => bind hR (hs f (by simp) subject)
      (ih fun g hg => hs g (List.mem_cons_of_mem _ hg))

/-- What is done for each element of a branch, or else something for a single operand. -/
theorem branched {f : Step} (hf : Leads settings R f) (a : Ref) {x : Eval Ref}
    (hx : Eval.Leads settings R x) :
    Eval.Leads settings R
      (do if (← Eval.read (·.isBranch a)) then
            let items ← Eval.ask (·.items? a)
            Eval.newBranch (← Step.collect f items)
          else x) := by
  refine bind hR (read hR _) fun isBranch => ?_
  cases isBranch
  · exact hx
  · refine bind hR (ask hR _) fun items => ?_
    exact bind hR (collect hR hf items) fun _ => newBranch hR _

theorem orMiss {f : Step} (hf : Leads settings R f) (subject : Ref) :
    Eval.Leads settings R (tryCatch (some <$> f subject)
      fun e => if e.isMiss then Pure.pure none else throw e) := by
  refine .tryCatch hR ?_ fun e => ?_
  · exact bind hR (hf subject) fun _ => pure hR _
  · split
    · exact pure hR _
    · exact throw hR _

-- ---------------------------------------------------------------------------
-- Looking things up
-- ---------------------------------------------------------------------------

theorem property (name : String) : Leads settings R (property name) := fun _ => ask hR _

theorem index {key : Step} (hk : Leads settings R key) : Leads settings R (index key) := by
  intro subject
  refine bind hR (hk subject) fun k => bind hR (read hR _) fun d => ?_
  split
  · exact ask hR _
  · exact ask hR _
  · exact throw hR _

theorem bound {f : Option Step} (hf : ∀ g ∈ f, Leads settings R g) (subject : Ref) :
    Eval.Leads settings R (bound f subject) := by
  cases f with
  | none => exact pure hR _
  | some g => exact bind hR (hf g rfl subject) fun r => bind hR (ask hR _) fun _ => pure hR _

theorem range {start stop : Option Step} (hs : ∀ g ∈ start, Leads settings R g)
    (ht : ∀ g ∈ stop, Leads settings R g) : Leads settings R (range start stop) := by
  intro subject
  refine bind hR (bound hR hs subject) fun _ => bind hR (bound hR ht subject) fun _ => ?_
  exact bind hR (ask hR _) fun _ => new hR _

theorem var (name : String) : Leads settings R (var name) := by
  intro subject
  unfold Step.var
  split
  · exact pure hR _
  · refine bind hR (.get hR) fun session => ?_
    split
    · exact pure hR _
    · refine bind hR (.readSettings hR) fun s => ?_
      split
      · exact new hR _
      · exact throw hR _

theorem spread (hS : Spreadable R) : Leads settings R spread := by
  have hnew (items : List Ref) : Eval.Leads settings R
      (do let r ← Eval.new (.slice items); Eval.change (·.markSpread r); return r) := by
    intro σ
    let d : Data := .slice items
    show R σ { σ with store := (σ.store.new d).2.markSpread (σ.store.new d).1 }
    rw [Store.markSpread, Store.new, Store.mark_add_self]
    exact hS σ items
  refine fun _ => bind hR (read hR _) fun d => ?_
  cases d with
  | scalar => exact throw hR _
  | slice items => exact hnew items
  | map entries => exact hnew _

-- ---------------------------------------------------------------------------
-- Operators
-- ---------------------------------------------------------------------------

theorem operate (op : BinaryOp) (a b : Ref) : Eval.Leads settings R (operate op a b) := by
  refine bind hR (read hR _) fun result => ?_
  cases result with
  | ok => exact new hR _
  | error => exact throw hR _

theorem matching (op : BinaryOp) (pattern : Option String) (left : Ref) :
    Eval.Leads settings R (matching op pattern left) := by
  unfold Step.matching
  split
  · exact throw hR _
  · split
    · exact throw hR _
    · exact bind hR (ask hR _) fun _ => new hR _

theorem applyTo {right : Step} (op : BinaryOp) (pattern : Option String) (left : Ref)
    (hr : Leads settings R right) : Leads settings R (applyTo op pattern right left) := by
  intro subject
  unfold Step.applyTo
  split
  · exact matching hR _ _ _
  · exact matching hR _ _ _
  · exact bind hR (hr subject) fun _ => operate hR _ _ _

theorem binary {left right : Step} (op : BinaryOp) (pattern : Option String)
    (hl : Leads settings R left) (hr : Leads settings R right) :
    Leads settings R (binary op pattern left right) := by
  intro subject
  refine bind hR (hl subject) fun a => ?_
  exact branched hR (fun item => applyTo hR op pattern item hr item) a
    (applyTo hR op pattern a hr subject)

theorem coalesce {left right : Step} (hl : Leads settings R left) (hr : Leads settings R right) :
    Leads settings R (coalesce left right) := by
  intro subject
  refine bind hR (orMiss hR hl subject) fun a => ?_
  cases a with
  | none => exact hr subject
  | some a =>
    refine branched hR (fun item => ?_) a ?_
    · refine bind hR (read hR _) fun isNull => ?_
      cases isNull
      · exact pure hR _
      · exact hr item
    · refine bind hR (read hR _) fun isNull => ?_
      cases isNull
      · exact pure hR _
      · exact hr subject

theorem negation (r : Ref) : Eval.Leads settings R (negation r) :=
  bind hR (ask hR _) fun _ => new hR _

theorem not {operand : Step} (ho : Leads settings R operand) : Leads settings R (not operand) :=
  fun subject => bind hR (ho subject) fun a => branched hR (negation hR) a (negation hR a)

-- ---------------------------------------------------------------------------
-- Building values
-- ---------------------------------------------------------------------------

theorem gather {steps : List Step} (take : Store → Ref → Except ValueError (List Ref))
    (hs : ∀ f ∈ steps, Leads settings R f) (subject : Ref) :
    Eval.Leads settings R (gather take steps subject) := by
  induction steps with
  | nil => exact pure hR _
  | cons f rest ih =>
    refine bind hR (hs f (by simp) subject) fun result => bind hR (ask hR _) fun taken => ?_
    exact bind hR (ih fun g hg => hs g (List.mem_cons_of_mem _ hg)) fun _ => pure hR _

theorem array {items : List Step} (hs : ∀ f ∈ items, Leads settings R f) :
    Leads settings R (array items) :=
  fun subject => bind hR (gather hR _ hs subject) fun _ => new hR _

theorem branch {results : List Step} (hs : ∀ f ∈ results, Leads settings R f) :
    Leads settings R (branch results) := by
  intro subject
  unfold Step.branch
  split
  · refine bind hR (read hR _) fun d => ?_
    split
    · exact bind hR (ask hR _) fun _ => newBranch hR _
    · exact throw hR _
  · exact bind hR (gather hR _ hs subject) fun _ => newBranch hR _

theorem call {arguments : List Step} (name : String)
    (hf : ∀ f, settings.functions.find? name = some f → f.Leads R)
    (hs : ∀ f ∈ arguments, Leads settings R f) : Leads settings R (call name arguments) := by
  intro subject σ
  unfold Step.call
  rw [Eval.exec_bind, Eval.exec_settings]
  dsimp only
  split
  · exact hR.refl σ
  · rename_i f hfind
    refine bind hR (gather hR _ hs subject) (fun args => ?_) σ
    refine .tryCatch hR (.act fun σ => ?_) fun _ => throw hR _
    unfold Function.call
    split
    · exact hf f hfind subject args σ
    · exact hR.refl σ

def ofEntry (settings : Settings) (R : Session → Session → Prop) : Entry → Prop
  | .spread source => ∀ f ∈ source, Leads settings R f
  | .pair key value => Leads settings R key ∧ Leads settings R value

theorem addTo {entry : Entry} (he : ofEntry settings R entry) (object : Dict Ref) (subject : Ref) :
    Eval.Leads settings R (entry.addTo object subject) := by
  cases entry with
  | spread source =>
    cases source with
    | none => exact bind hR (pure hR _) fun _ => bind hR (ask hR _) fun _ => pure hR _
    | some f => exact bind hR (he f rfl subject) fun _ => bind hR (ask hR _) fun _ => pure hR _
  | pair key value =>
    refine bind hR (he.1 subject) fun k => bind hR (read hR _) fun d => ?_
    split
    · exact bind hR (he.2 subject) fun _ => bind hR (clearSpread hR _) fun _ => pure hR _
    · exact throw hR _

theorem addEntries {entries : List Entry} (he : ∀ e ∈ entries, ofEntry settings R e)
    (object : Dict Ref) (subject : Ref) :
    Eval.Leads settings R (addEntries object entries subject) := by
  induction entries generalizing object with
  | nil => exact pure hR _
  | cons entry rest ih =>
    exact bind hR (addTo hR (he entry (by simp)) object subject)
      fun _ => ih (fun e h => he e (List.mem_cons_of_mem _ h)) _

theorem object {entries : List Entry} (he : ∀ e ∈ entries, ofEntry settings R e) :
    Leads settings R (object entries) :=
  fun subject => bind hR (addEntries hR he _ subject) fun _ => new hR _

theorem conditional {condition consequence : Step} {alternative : Option Step}
    (hc : Leads settings R condition) (ht : Leads settings R consequence)
    (ha : ∀ f ∈ alternative, Leads settings R f) :
    Leads settings R (conditional condition consequence alternative) := by
  intro subject
  refine bind hR (hc subject) fun c => bind hR (ask hR _) fun holds => ?_
  cases holds
  · cases alternative with
    | none => exact new hR _
    | some f => exact ha f rfl subject
  · exact ht subject

-- ---------------------------------------------------------------------------
-- Going over collections
-- ---------------------------------------------------------------------------

theorem elements (iteration : Iteration) (subject : Ref) :
    Eval.Leads settings R (elements iteration subject) := by
  refine bind hR (read hR _) fun d => ?_
  split
  · exact pure hR _
  · exact throw hR _

theorem results {f : Step} (hf : Leads settings R f) (refs : List Ref) :
    Eval.Leads settings R (results f refs) := by
  induction refs with
  | nil => exact pure hR _
  | cons r rest ih =>
    exact bind hR (hf r) fun _ => bind hR (clearSpread hR _) fun _ => bind hR ih fun _ => pure hR _

theorem map {f : Step} (hf : Leads settings R f) : Leads settings R (map f) := fun subject =>
  bind hR (elements hR _ subject) fun items => bind hR (results hR hf items) fun _ => new hR _

theorem runAll {f : Step} (hf : Leads settings R f) (refs : List Ref) :
    Eval.Leads settings R (runAll f refs) := by
  induction refs with
  | nil => exact pure hR _
  | cons r rest ih => exact bind hR (hf r) fun _ => ih

theorem each {f : Step} (hf : Leads settings R f) : Leads settings R (each f) := fun subject =>
  bind hR (elements hR _ subject) fun items => bind hR (runAll hR hf items) fun _ => pure hR _

theorem kept {f : Step} (hf : Leads settings R f) (refs : List Ref) :
    Eval.Leads settings R (kept f refs) := by
  induction refs with
  | nil => exact pure hR _
  | cons r rest ih =>
    refine bind hR (hf r) fun _ => bind hR (ask hR _) fun holds => ?_
    cases holds
    · exact ih
    · exact bind hR ih fun _ => pure hR _

theorem filter {f : Step} (hf : Leads settings R f) : Leads settings R (filter f) := fun subject =>
  bind hR (elements hR _ subject) fun items => bind hR (kept hR hf items) fun _ => new hR _

theorem sortKeys {f : Step} (hf : Leads settings R f) (refs : List Ref) :
    Eval.Leads settings R (sortKeys f refs) := by
  induction refs with
  | nil => exact pure hR _
  | cons r rest ih => exact bind hR (hf r) fun _ => bind hR ih fun _ => pure hR _

theorem sortBy {key : Step} (hk : Leads settings R key) (direction : SortDirection) :
    Leads settings R (sortBy key direction) := by
  intro subject
  refine bind hR (elements hR _ subject) fun items => bind hR (sortKeys hR hk items) fun keys => ?_
  exact bind hR (read hR _) fun _ => bind hR (noteSort hR _) fun _ => new hR _

theorem holdsOn {f : Step} (hf : Leads settings R f) (r : Ref) :
    Eval.Leads settings R (holdsOn f r) := by
  refine bind hR (orMiss hR hf r) fun result => ?_
  cases result with
  | none => exact pure hR _
  | some => exact ask hR _

theorem searchNodes {f : Step} {below : Ref → Eval (List Ref)} (hf : Leads settings R f)
    (hb : ∀ r, Eval.Leads settings R (below r)) (refs : List Ref) :
    Eval.Leads settings R (searchNodes f below refs) := by
  induction refs with
  | nil => exact pure hR _
  | cons r rest ih =>
    refine bind hR (holdsOn hR hf r) fun _ => bind hR (hb r) fun _ => ?_
    exact bind hR ih fun _ => pure hR _

theorem searchBelow {f : Step} (hf : Leads settings R f) (levels : Nat) (r : Ref) :
    Eval.Leads settings R (searchBelow f levels r) := by
  induction levels generalizing r with
  | zero =>
    unfold Step.searchBelow
    refine bind hR (read hR _) fun d => ?_
    split
    · exact pure hR _
    · exact bind hR (.readSettings hR) fun _ => throw hR _
  | succ levels ih =>
    unfold Step.searchBelow
    exact bind hR (read hR _) fun d => searchNodes hR hf ih _

theorem search {f : Step} (hf : Leads settings R f) : Leads settings R (search f) := fun subject =>
  bind hR (.readSettings hR) fun _ => bind hR (searchBelow hR hf _ subject) fun _ => new hR _

theorem descend (target : DescentTarget) : Leads settings R (descend target) :=
  fun _ => bind hR (read hR _) fun _ => new hR _

-- ---------------------------------------------------------------------------
-- Assignment
-- ---------------------------------------------------------------------------

variable (hW : Writable R)
include hW

theorem writeInto (target : Ref) (op : Option BinaryOp) (value : Ref) :
    Eval.Leads settings R (writeInto target op value) := by
  have hset (value : Ref) : Eval.Leads settings R (Eval.change (·.set target value)) :=
    fun σ => hW.write σ target value
  have hrest (value : Ref) : Eval.Leads settings R (do
      Eval.change (·.set target value)
      if (← Eval.read (·.isScalar target)) then return value else return target) := by
    refine bind hR (hset value) fun _ => bind hR (read hR _) fun isScalar => ?_
    cases isScalar <;> exact pure hR _
  cases op with
  | none => exact bind hR (pure hR _) hrest
  | some op => exact bind hR (operate hR op target value) hrest

theorem bindUnbound (name : String) : Eval.Leads settings R (bindUnbound name) := by
  intro σ
  show R σ (Eval.exec settings (if σ.bindings.contains name then Pure.pure () else do
    let r ← Eval.new .null
    modifyGet fun session =>
      ((), { session with bindings := session.bindings.insert name r })) σ).2
  split
  · exact hR.refl σ
  · exact hW.bind σ name (by simp_all)

theorem assign {target value : Step} (name : Option String) (op : Option BinaryOp)
    (ht : Leads settings R target) (hv : Leads settings R value) :
    Leads settings R (assign name target op value) := by
  have hrest (subject : Ref) : Eval.Leads settings R (do
      let a ← target subject
      if (← Eval.read (·.isBranch a)) then
        let items ← Eval.ask (·.items? a)
        let write (item : Ref) : Eval Ref := do Step.writeInto item op (← value item)
        Eval.newBranch (← Step.collect write items)
      else Step.writeInto a op (← value subject)) := by
    refine bind hR (ht subject) fun a => branched hR (fun item => ?_) a ?_
    · exact bind hR (hv item) fun _ => writeInto hR hW item op _
    · exact bind hR (hv subject) fun _ => writeInto hR hW a op _
  intro subject
  cases name with
  | none => exact hrest subject
  | some name => exact bind hR (bindUnbound hR hW name) fun _ => hrest subject

end DocSelect.Step.Leads
