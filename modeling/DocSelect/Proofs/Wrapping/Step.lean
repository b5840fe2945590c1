import DocSelect.Proofs.Wrapping.Basic

/-!
# Errors of steps

Each step throws the errors of the steps that it is made of, and errors without wrappers. Only
`within` and a call put wrappers around an error, and fallbacks and searches take some errors for a
miss.
-/
namespace DocSelect.Step.Throws

open Eval.Throws (pure throw read noteSort ask bind new newBranch change)

variable {settings : Settings} {P Q : EvalError → Prop}

theorem within {f : Step} {node : String} (hf : Throws settings P f)
    (hnode : ∀ e, P e → Q (.within node e)) : Throws settings Q (within node f) :=
  fun subject => .tryCatch (hf subject) fun e he => throw (hnode e he)

theorem orMiss {f : Step} (hf : Throws settings P f) (subject : Ref) :
    Eval.Throws settings P (tryCatch (some <$> f subject)
      fun e => if e.isMiss then Pure.pure none else throw e) := by
  refine .tryCatch (bind (hf subject) fun _ => pure _) fun e he => ?_
  split
  · exact pure _
  · exact throw he

theorem chain {steps : List Step} (hs : ∀ f ∈ steps, Throws settings P f) :
    Throws settings P (chain steps) := by
  induction steps with
  | nil => exact fun _ => pure _
  | cons f rest ih =>
    exact fun subject => bind (hs f List.mem_cons_self subject)
      (ih fun g hg => hs g (List.mem_cons_of_mem _ hg))

theorem results {f : Step} (hf : Throws settings P f) (refs : List Ref) :
    Eval.Throws settings P (results f refs) := by
  induction refs with
  | nil => exact pure _
  | cons r rest ih => exact bind (hf r) fun _ => bind (change _) fun _ => bind ih fun _ => pure _

theorem runAll {f : Step} (hf : Throws settings P f) (refs : List Ref) :
    Eval.Throws settings P (runAll f refs) := by
  induction refs with
  | nil => exact pure _
  | cons r rest ih => exact bind (hf r) fun _ => ih

theorem sortKeys {f : Step} (hf : Throws settings P f) (refs : List Ref) :
    Eval.Throws settings P (sortKeys f refs) := by
  induction refs with
  | nil => exact pure _
  | cons r rest ih => exact bind (hf r) fun _ => bind ih fun _ => pure _

theorem bindUnbound (name : String) : Eval.Throws settings P (bindUnbound name) := by
  refine bind .get fun session => ?_
  split
  · exact pure _
  · exact bind (new _) fun _ => .of_ok fun _ => ⟨_, rfl⟩

variable (hP : ∀ e, e.Bare → P e)
include hP

-- ---------------------------------------------------------------------------
-- Every subject
-- ---------------------------------------------------------------------------

theorem collect {f : Step} (hf : Throws settings P f) (refs : List Ref) :
    Eval.Throws settings P (collect f refs) := by
  induction refs with
  | nil => exact pure _
  | cons r rest ih =>
    exact bind (hf r) fun result => bind (ask hP _) fun contributed => bind ih fun _ => pure _

theorem collectKept {f : Step} (hf : Throws settings P f) (refs : List Ref) :
    Eval.Throws settings P (collectKept f refs) := by
  induction refs with
  | nil => exact pure _
  | cons r rest ih =>
    refine bind (hf r) fun result => bind (read _) fun ignored => ?_
    cases ignored
    · exact bind (ask hP _) fun contributed => bind ih fun _ => pure _
    · exact ih

theorem broadcast {f : Step} (hf : Throws settings P f) : Throws settings P (broadcast f) := by
  intro subject
  refine bind (read _) fun isBranch => ?_
  cases isBranch
  · exact hf subject
  · exact bind (ask hP _) fun items => bind (collectKept hP hf items) fun _ => newBranch _

/-- What is done for each element of a branch, or else something for a single operand. -/
theorem branched {f : Step} (hf : Throws settings P f) (a : Ref) {x : Eval Ref}
    (hx : Eval.Throws settings P x) :
    Eval.Throws settings P
      (do if (← Eval.read (·.isBranch a)) then
            let items ← Eval.ask (·.items? a)
            Eval.newBranch (← Step.collect f items)
          else x) := by
  refine bind (read _) fun isBranch => ?_
  cases isBranch
  · exact hx
  · exact bind (ask hP _) fun items => bind (collect hP hf items) fun _ => newBranch _

-- ---------------------------------------------------------------------------
-- Looking things up
-- ---------------------------------------------------------------------------

theorem property (name : String) : Throws settings P (property name) := fun _ => ask hP _

theorem index {key : Step} (hk : Throws settings P key) : Throws settings P (index key) := by
  intro subject
  refine bind (hk subject) fun k => bind (read _) fun d => ?_
  split
  · exact ask hP _
  · exact ask hP _
  · exact throw (hP _ rfl)

theorem bound {f : Option Step} (hf : ∀ g ∈ f, Throws settings P g) (subject : Ref) :
    Eval.Throws settings P (bound f subject) := by
  cases f with
  | none => exact pure _
  | some g => exact bind (hf g rfl subject) fun r => bind (ask hP _) fun _ => pure _

theorem range {start stop : Option Step} (hs : ∀ g ∈ start, Throws settings P g)
    (ht : ∀ g ∈ stop, Throws settings P g) : Throws settings P (range start stop) := by
  intro subject
  refine bind (bound hP hs subject) fun _ => bind (bound hP ht subject) fun _ => ?_
  exact bind (ask hP _) fun _ => new _

theorem var (name : String) : Throws settings P (var name) := by
  intro subject
  unfold Step.var
  split
  · exact pure _
  · refine bind .get fun session => ?_
    split
    · exact pure _
    · refine bind .readSettings fun s => ?_
      split
      · exact new _
      · exact throw (hP _ rfl)

theorem spread : Throws settings P spread := by
  have hnew (items : List Ref) : Eval.Throws settings P
      (do let r ← Eval.new (.slice items); Eval.change (·.markSpread r); return r) :=
    bind (new _) fun _ => bind (change _) fun _ => pure _
  refine fun _ => bind (read _) fun d => ?_
  cases d with
  | scalar => exact throw (hP _ rfl)
  | slice items => exact hnew items
  | map entries => exact hnew _

-- ---------------------------------------------------------------------------
-- Operators
-- ---------------------------------------------------------------------------

omit hP in
theorem bare_of_operate? {s : Store} {op : BinaryOp} {a b : Ref} {e : EvalError}
    (h : s.operate? op a b = .error e) : e.Bare := by
  have hvalue {α : Type} {x : Except ValueError α} (h : x.mapError EvalError.value = .error e) :
      e.Bare := by
    cases x <;> cases h
    rfl
  cases op
  case equal | notEqual => cases h
  case like | notLike | coalesce =>
    cases h
    rfl
  all_goals exact hvalue h

theorem operate (op : BinaryOp) (a b : Ref) : Eval.Throws settings P (operate op a b) := by
  intro σ e he
  unfold Step.operate at he
  rw [Eval.exec_bind, Eval.exec_read] at he
  dsimp only at he
  cases hresult : σ.store.operate? op a b <;> rw [hresult] at he
  · cases he
    exact hP _ (bare_of_operate? hresult)
  · cases he

theorem matching (op : BinaryOp) (pattern : Option String) (left : Ref) :
    Eval.Throws settings P (matching op pattern left) := by
  unfold Step.matching
  split
  · exact throw (hP _ rfl)
  · split
    · exact throw (hP _ rfl)
    · exact bind (ask hP _) fun _ => new _

theorem applyTo {right : Step} (op : BinaryOp) (pattern : Option String) (left : Ref)
    (hr : Throws settings P right) : Throws settings P (applyTo op pattern right left) := by
  intro subject
  unfold Step.applyTo
  split
  · exact matching hP _ _ _
  · exact matching hP _ _ _
  · exact bind (hr subject) fun _ => operate hP _ _ _

theorem binary {left right : Step} (op : BinaryOp) (pattern : Option String)
    (hl : Throws settings P left) (hr : Throws settings P right) :
    Throws settings P (binary op pattern left right) := by
  intro subject
  refine bind (hl subject) fun a => ?_
  exact branched hP (fun item => applyTo hP op pattern item hr item) a
    (applyTo hP op pattern a hr subject)

theorem coalesce {left right : Step} (hl : Throws settings P left) (hr : Throws settings P right) :
    Throws settings P (coalesce left right) := by
  intro subject
  refine bind (orMiss hl subject) fun a => ?_
  cases a with
  | none => exact hr subject
  | some a =>
    refine branched hP (fun item => ?_) a ?_
    · refine bind (read _) fun isNull => ?_
      cases isNull
      · exact pure _
      · exact hr item
    · refine bind (read _) fun isNull => ?_
      cases isNull
      · exact pure _
      · exact hr subject

theorem negation (r : Ref) : Eval.Throws settings P (negation r) := bind (ask hP _) fun _ => new _

theorem not {operand : Step} (ho : Throws settings P operand) : Throws settings P (not operand) :=
  fun subject => bind (ho subject) fun a => branched hP (negation hP) a (negation hP a)

-- ---------------------------------------------------------------------------
-- Building values
-- ---------------------------------------------------------------------------

theorem gather {steps : List Step} (take : Store → Ref → Except ValueError (List Ref))
    (hs : ∀ f ∈ steps, Throws settings P f) (subject : Ref) :
    Eval.Throws settings P (gather take steps subject) := by
  induction steps with
  | nil => exact pure _
  | cons f rest ih =>
    refine bind (hs f List.mem_cons_self subject) fun result => bind (ask hP _) fun taken => ?_
    exact bind (ih fun g hg => hs g (List.mem_cons_of_mem _ hg)) fun _ => pure _

theorem array {items : List Step} (hs : ∀ f ∈ items, Throws settings P f) :
    Throws settings P (array items) :=
  fun subject => bind (gather hP _ hs subject) fun _ => new _

theorem branch {results : List Step} (hs : ∀ f ∈ results, Throws settings P f) :
    Throws settings P (branch results) := by
  intro subject
  unfold Step.branch
  split
  · refine bind (read _) fun d => ?_
    split
    · exact bind (ask hP _) fun _ => newBranch _
    · exact throw (hP _ rfl)
  · exact bind (gather hP _ hs subject) fun _ => newBranch _

theorem call {arguments : List Step} {name : String}
    (hname : ∀ f, settings.functions.find? name = some f → ∀ subject arguments s x,
      ((f.call subject arguments).exec s).1 = .error x → P (.inFunction name x))
    (hs : ∀ f ∈ arguments, Throws settings P f) : Throws settings P (call name arguments) := by
  intro subject σ e he
  unfold Step.call at he
  rw [Eval.exec_bind, Eval.exec_settings] at he
  dsimp only at he
  cases hfind : settings.functions.find? name <;> rw [hfind] at he
  · cases he
    exact hP _ rfl
  · rename_i f
    refine bind (gather hP _ hs subject) (fun args => ?_) σ e he
    exact .tryCatch (.act (hname f hfind subject args)) fun x hx => throw hx

def ofEntry (settings : Settings) (P : EvalError → Prop) : Entry → Prop
  | .spread source => ∀ f ∈ source, Throws settings P f
  | .pair key value => Throws settings P key ∧ Throws settings P value

theorem addTo {entry : Entry} (he : ofEntry settings P entry) (object : Dict Ref) (subject : Ref) :
    Eval.Throws settings P (entry.addTo object subject) := by
  cases entry with
  | spread source =>
    cases source with
    | none => exact bind (pure _) fun _ => bind (ask hP _) fun _ => pure _
    | some f => exact bind (he f rfl subject) fun _ => bind (ask hP _) fun _ => pure _
  | pair key value =>
    refine bind (he.1 subject) fun k => bind (read _) fun d => ?_
    split
    · exact bind (he.2 subject) fun _ => bind (change _) fun _ => pure _
    · exact throw (hP _ rfl)

theorem addEntries {entries : List Entry} (he : ∀ e ∈ entries, ofEntry settings P e)
    (object : Dict Ref) (subject : Ref) :
    Eval.Throws settings P (addEntries object entries subject) := by
  induction entries generalizing object with
  | nil => exact pure _
  | cons entry rest ih =>
    exact bind (addTo hP (he entry List.mem_cons_self) object subject)
      fun _ => ih (fun e h => he e (List.mem_cons_of_mem _ h)) _

theorem object {entries : List Entry} (he : ∀ e ∈ entries, ofEntry settings P e) :
    Throws settings P (object entries) :=
  fun subject => bind (addEntries hP he _ subject) fun _ => new _

theorem conditional {condition consequence : Step} {alternative : Option Step}
    (hc : Throws settings P condition) (ht : Throws settings P consequence)
    (ha : ∀ f ∈ alternative, Throws settings P f) :
    Throws settings P (conditional condition consequence alternative) := by
  intro subject
  refine bind (hc subject) fun c => bind (ask hP _) fun holds => ?_
  cases holds
  · cases alternative with
    | none => exact new _
    | some f => exact ha f rfl subject
  · exact ht subject

-- ---------------------------------------------------------------------------
-- Going over collections
-- ---------------------------------------------------------------------------

theorem elements (iteration : Iteration) (subject : Ref) :
    Eval.Throws settings P (elements iteration subject) := by
  refine bind (read _) fun d => ?_
  split
  · exact pure _
  · exact throw (hP _ rfl)

theorem map {f : Step} (hf : Throws settings P f) : Throws settings P (map f) := fun subject =>
  bind (elements hP _ subject) fun items => bind (results hf items) fun _ => new _

theorem each {f : Step} (hf : Throws settings P f) : Throws settings P (each f) := fun subject =>
  bind (elements hP _ subject) fun items => bind (runAll hf items) fun _ => pure _

theorem kept {f : Step} (hf : Throws settings P f) (refs : List Ref) :
    Eval.Throws settings P (kept f refs) := by
  induction refs with
  | nil => exact pure _
  | cons r rest ih =>
    refine bind (hf r) fun _ => bind (ask hP _) fun holds => ?_
    cases holds
    · exact ih
    · exact bind ih fun _ => pure _

theorem filter {f : Step} (hf : Throws settings P f) : Throws settings P (filter f) :=
  fun subject =>
  bind (elements hP _ subject) fun items => bind (kept hP hf items) fun _ => new _

theorem sortBy {key : Step} (hk : Throws settings P key) (direction : SortDirection) :
    Throws settings P (sortBy key direction) := by
  intro subject
  refine bind (elements hP _ subject) fun items => bind (sortKeys hk items) fun keys => ?_
  exact bind (read _) fun _ => bind (noteSort _) fun _ => new _

theorem holdsOn {f : Step} (hf : Throws settings P f) (r : Ref) :
    Eval.Throws settings P (holdsOn f r) := by
  refine bind (orMiss hf r) fun result => ?_
  cases result with
  | none => exact pure _
  | some => exact ask hP _

theorem searchNodes {f : Step} {below : Ref → Eval (List Ref)} (hf : Throws settings P f)
    (hb : ∀ r, Eval.Throws settings P (below r)) (refs : List Ref) :
    Eval.Throws settings P (searchNodes f below refs) := by
  induction refs with
  | nil => exact pure _
  | cons r rest ih =>
    exact bind (holdsOn hP hf r) fun _ => bind (hb r) fun _ => bind ih fun _ => pure _

theorem searchBelow {f : Step} (hf : Throws settings P f) (levels : Nat) (r : Ref) :
    Eval.Throws settings P (searchBelow f levels r) := by
  induction levels generalizing r with
  | zero =>
    unfold Step.searchBelow
    refine bind (read _) fun d => ?_
    split
    · exact pure _
    · exact bind .readSettings fun _ => throw (hP _ rfl)
  | succ levels ih =>
    unfold Step.searchBelow
    exact bind (read _) fun d => searchNodes hP hf ih _

theorem search {f : Step} (hf : Throws settings P f) : Throws settings P (search f) :=
  fun subject =>
  bind .readSettings fun _ => bind (searchBelow hP hf _ subject) fun _ => new _

omit hP in
theorem descend (target : DescentTarget) : Throws settings P (descend target) :=
  fun _ => bind (read _) fun _ => new _

-- ---------------------------------------------------------------------------
-- Assignment
-- ---------------------------------------------------------------------------

theorem writeInto (target : Ref) (op : Option BinaryOp) (value : Ref) :
    Eval.Throws settings P (writeInto target op value) := by
  have hrest (value : Ref) : Eval.Throws settings P (do
      Eval.change (·.set target value)
      if (← Eval.read (·.isScalar target)) then return value else return target) := by
    refine bind (change _) fun _ => bind (read _) fun isScalar => ?_
    cases isScalar <;> exact pure _
  cases op with
  | none => exact bind (pure _) hrest
  | some op => exact bind (operate hP op target value) hrest

theorem assign {target value : Step} (name : Option String) (op : Option BinaryOp)
    (ht : Throws settings P target) (hv : Throws settings P value) :
    Throws settings P (assign name target op value) := by
  have hrest (subject : Ref) : Eval.Throws settings P (do
      let a ← target subject
      if (← Eval.read (·.isBranch a)) then
        let items ← Eval.ask (·.items? a)
        let write (item : Ref) : Eval Ref := do Step.writeInto item op (← value item)
        Eval.newBranch (← Step.collect write items)
      else Step.writeInto a op (← value subject)) := by
    refine bind (ht subject) fun a => branched hP (fun item => ?_) a ?_
    · exact bind (hv item) fun _ => writeInto hP item op _
    · exact bind (hv subject) fun _ => writeInto hP a op _
  intro subject
  cases name with
  | none => exact hrest subject
  | some name => exact bind (bindUnbound name) fun _ => hrest subject

end DocSelect.Step.Throws
