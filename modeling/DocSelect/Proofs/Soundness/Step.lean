import DocSelect.Eval.Evaluate
import DocSelect.Proofs.Frame
import DocSelect.Proofs.Soundness.Builtin
import DocSelect.Proofs.Sorting.Stable

/-!
# Steps keep sessions sound

Each step does if the steps that it is made of do. Results that are collected in a branch are no
branches themselves, because branches among them contribute their elements; what is stored in
another container is no spread, because spreads are taken apart or lose their mark first.
-/
namespace DocSelect

theorem exists_of_mem_mapM {ε α β : Type} {f : α → Except ε β} {xs : List α} {ys : List β}
    {y : β} (h : xs.mapM f = .ok ys) (hy : y ∈ ys) : ∃ x ∈ xs, f x = .ok y := by
  induction xs generalizing ys with
  | nil =>
    cases h
    exact absurd hy List.not_mem_nil
  | cons x xs ih =>
    rw [List.mapM_cons] at h
    obtain ⟨z, hz, h⟩ := Except.bind_eq_ok_iff.1 h
    obtain ⟨zs, hzs, h⟩ := Except.bind_eq_ok_iff.1 h
    cases h
    rcases List.mem_cons.1 hy with rfl | hy
    · exact ⟨x, List.mem_cons_self, hz⟩
    · obtain ⟨x', hx', hy⟩ := ih hzs hy
      exact ⟨x', List.mem_cons_of_mem _ hx', hy⟩

namespace Step

/-- Run on a node that is there, the step keeps a session sound, and a result is a node of it. -/
def Runs (w : Concern) (settings : Settings) (f : Step) : Prop :=
  ∀ subject σ, σ.Sound w → σ.store.Known subject →
    Eval.Runs w settings (f subject) σ fun r τ => τ.store.Known r

namespace Runs

open Eval.Runs (pure throw read noteSort get ask asking readSettings new scalar newBranch
  clearSpread newSpread)

variable {w : Concern} {settings : Settings} {σ : Session}

-- ---------------------------------------------------------------------------
-- Every subject
-- ---------------------------------------------------------------------------

theorem collect {f : Ref → Eval Ref} (hσ : σ.Sound w) {refs : List Ref}
    (hf : ∀ r ∈ refs, ∀ τ, τ.Sound w → σ.store.Onward τ.store →
      Eval.Runs w settings (f r) τ fun r τ => τ.store.Known r) :
    Eval.Runs w settings (Step.collect f refs) σ fun rs τ => ∀ c ∈ rs, τ.store.Single c := by
  induction refs generalizing σ with
  | nil => exact pure hσ fun _ hc => absurd hc List.not_mem_nil
  | cons r rest ih =>
    refine (hf r List.mem_cons_self σ hσ (.refl _)).bind fun result τ hτ hon hresult => ?_
    refine asking hτ fun contributed hcon => ?_
    have hrest := ih hτ fun r hr υ hυ hon' =>
      hf r (List.mem_cons_of_mem _ hr) υ hυ (hon.trans hon')
    refine hrest.bind fun rs υ hυ hon' hrs => pure hυ fun c hc => ?_
    rcases List.mem_append.1 hc with hc | hc
    · exact hon'.single (hτ.store.flatten_single hresult hcon c hc)
    · exact hrs c hc

theorem collectKept {f : Step} (hf : Runs w settings f) (hσ : σ.Sound w) {refs : List Ref}
    (hrefs : ∀ r ∈ refs, σ.store.Known r) :
    Eval.Runs w settings (Step.collectKept f refs) σ fun rs τ => ∀ c ∈
      rs, τ.store.Single c := by
  induction refs generalizing σ with
  | nil => exact pure hσ fun _ hc => absurd hc List.not_mem_nil
  | cons r rest ih =>
    refine (hf r σ hσ (hrefs r List.mem_cons_self)).bind fun result τ hτ hon hresult =>
      read hτ ?_
    have hrest := ih hτ fun r hr => hon.known (hrefs r (List.mem_cons_of_mem _ hr))
    cases τ.store.isIgnored result
    · refine asking hτ fun contributed hcon => ?_
      refine hrest.bind fun rs υ hυ hon' hrs => pure hυ fun c hc => ?_
      rcases List.mem_append.1 hc with hc | hc
      · exact hon'.single (hτ.store.flatten_single hresult hcon c hc)
      · exact hrs c hc
    · exact hrest

theorem within {f : Step} (node : String) (hf : Runs w settings f) :
    Runs w settings (within node f) :=
  fun subject σ hσ hsub => (hf subject σ hσ hsub).rethrow fun _ => rfl

theorem broadcast {f : Step} (hf : Runs w settings f) : Runs w settings (broadcast f) := by
  intro subject σ hσ hsub
  refine read hσ ?_
  cases σ.store.isBranch subject
  · exact hf subject σ hσ hsub
  · refine asking hσ fun items hitems => ?_
    refine (collectKept hf hσ fun r hr => ?_).bind fun rs τ hτ _ hrs => newBranch hτ hrs
    exact hσ.store.part_known (Store.part_of_items? hitems hr)

theorem lift {f : Step} (e : Expr) (hf : Runs w settings f) : Runs w settings (e.lift f) :=
  broadcast (within _ hf)

theorem chain {steps : List Step} (hs : ∀ f ∈ steps, Runs w settings f) :
    Runs w settings (chain steps) := by
  induction steps with
  | nil => exact fun _ _ hσ hsub => pure hσ hsub
  | cons f rest ih =>
    intro subject σ hσ hsub
    refine (hs f List.mem_cons_self subject σ hσ hsub).bind fun r τ hτ _ hr => ?_
    exact ih (fun g hg => hs g (List.mem_cons_of_mem _ hg)) r τ hτ hr

/-- What is done for each element of a branch, or else something for a single operand. -/
theorem branched {f : Ref → Eval Ref} (hσ : σ.Sound w) {a : Ref} (ha : σ.store.Known a)
    (hf : ∀ item τ, τ.Sound w → σ.store.Onward τ.store → τ.store.Single item →
      Eval.Runs w settings (f item) τ fun r τ => τ.store.Known r) {x : Eval Ref}
    (hx : σ.store.Single a → Eval.Runs w settings x σ fun r τ => τ.store.Known r) :
    Eval.Runs w settings
      (do if (← Eval.read (·.isBranch a)) then
            let items ← Eval.ask (·.items? a)
            Eval.newBranch (← Step.collect f items)
          else x) σ fun r τ => τ.store.Known r := by
  refine read hσ ?_
  rcases hb : σ.store.isBranch a with _ | _
  · exact hx ⟨ha, hb⟩
  · refine asking hσ fun items hitems => ?_
    refine (collect hσ fun r hr τ hτ hon => ?_).bind fun rs τ hτ _ hrs => newBranch hτ hrs
    exact hf r τ hτ hon
      (hon.single (hσ.store.element_single hb (Store.part_of_items? hitems hr)))

theorem askPart (hσ : σ.Sound w) {r : Ref} {g : Store → Except ValueError Ref}
    (hg : ∀ c, g σ.store = .ok c → σ.store.Part c r) :
    Eval.Runs w settings (Eval.ask g) σ fun r τ => τ.store.Known r := by
  refine (ask hσ g).mono ?_
  rintro c τ - ⟨h, rfl⟩
  exact hσ.store.part_known (hg c h)

-- ---------------------------------------------------------------------------
-- Looking things up
-- ---------------------------------------------------------------------------

theorem property (name : String) : Runs w settings (property name) :=
  fun _ _ hσ _ => askPart hσ fun _ => Store.part_of_key?

theorem index {key : Step} (hk : Runs w settings key) : Runs w settings (index key) := by
  intro subject σ hσ hsub
  refine (hk subject σ hσ hsub).bind fun k τ hτ _ _ => read hτ ?_
  split
  · exact askPart hτ fun _ => Store.part_of_key?
  · exact askPart hτ fun _ => Store.part_of_item?
  · exact throw hτ fun _ => rfl

theorem bound {f : Option Step} (hf : ∀ g ∈ f, Runs w settings g) (hσ : σ.Sound w)
    {subject : Ref} (hsub : σ.store.Known subject) :
    Eval.Runs w settings (Step.bound f subject) σ fun _ _ => True := by
  cases f with
  | none => exact pure hσ trivial
  | some g =>
    refine (hf g rfl subject σ hσ hsub).bind fun r τ hτ _ _ => asking hτ fun _ _ => ?_
    exact pure hτ trivial

theorem range {start stop : Option Step} (hs : ∀ g ∈ start, Runs w settings g)
    (ht : ∀ g ∈ stop, Runs w settings g) : Runs w settings (range start stop) := by
  intro subject σ hσ hsub
  refine (bound hs hσ hsub).bind fun _ τ hτ hon _ => ?_
  refine (bound ht hτ (hon.known hsub)).bind fun _ υ hυ _ _ => ?_
  exact asking hυ fun d hd => new hυ fun c hc => hυ.store.part_fit (Store.part_of_range? hd hc)

theorem var (name : String) : Runs w settings (var name) := by
  intro subject σ hσ hsub
  unfold Step.var
  split
  · exact pure hσ hsub
  · refine get hσ ?_
    split
    · rename_i r hfind
      exact pure hσ (hσ.bindings (List.mem_map.2 ⟨_, σ.bindings.mem_of_find? hfind, rfl⟩))
    · refine readSettings hσ ?_ fun _ => rfl
      split
      · exact scalar hσ _
      · exact throw hσ fun _ => rfl

theorem spread : Runs w settings spread := by
  intro subject σ hσ _
  refine read hσ ?_
  split
  · exact throw hσ fun _ => rfl
  · exact newSpread hσ hσ.store.child_fit

-- ---------------------------------------------------------------------------
-- Operators
-- ---------------------------------------------------------------------------

theorem not_gaveUp_of_operate? {s : Store} {op : BinaryOp} {a b : Ref} {e : EvalError}
    (h : s.operate? op a b = .error e) : e.gaveUp = false := by
  have hvalue {α : Type} {x : Except ValueError α} (h : x.mapError EvalError.value = .error e) :
      e.gaveUp = false := by
    cases x <;> cases h
    rfl
  cases op
  case like | notLike | coalesce =>
    cases h
    rfl
  case equal | notEqual => cases h
  all_goals exact hvalue h

theorem operate (hσ : σ.Sound w) (op : BinaryOp) (a b : Ref) :
    Eval.Runs w settings (operate op a b) σ fun r τ => τ.store.Known r := by
  refine read hσ ?_
  split
  · exact scalar hσ _
  · rename_i h
    exact throw hσ fun _ => not_gaveUp_of_operate? h

theorem matching (hσ : σ.Sound w) (op : BinaryOp) (pattern : Option String) (left : Ref) :
    Eval.Runs w settings (matching op pattern left) σ fun r τ => τ.store.Known r := by
  unfold Step.matching
  split
  · exact throw hσ fun _ => rfl
  · split
    · exact throw hσ fun _ => rfl
    · exact asking hσ fun _ _ => scalar hσ _

theorem applyTo {right : Step} (hr : Runs w settings right) (op : BinaryOp)
    (pattern : Option String) (left : Ref) : Runs w settings (applyTo op pattern right left) := by
  intro subject σ hσ hsub
  unfold Step.applyTo
  split
  · exact matching hσ _ _ _
  · exact matching hσ _ _ _
  · exact (hr subject σ hσ hsub).bind fun _ _ hτ _ _ => operate hτ _ _ _

theorem binary {left right : Step} (op : BinaryOp) (pattern : Option String)
    (hl : Runs w settings left) (hr : Runs w settings right) :
    Runs w settings (binary op pattern left right) := by
  intro subject σ hσ hsub
  refine (hl subject σ hσ hsub).bind fun a τ hτ hon ha => branched hτ ha ?_ fun _ => ?_
  · exact fun item υ hυ _ hitem => applyTo hr op pattern item item υ hυ hitem.known
  · exact applyTo hr op pattern a subject τ hτ (hon.known hsub)

theorem coalesce {left right : Step} (hl : Runs w settings left) (hr : Runs w settings right) :
    Runs w settings (coalesce left right) := by
  intro subject σ hσ hsub
  refine (hl subject σ hσ hsub).orMiss.bind fun a τ hτ hon ha => ?_
  cases a with
  | none => exact hr subject τ hτ (hon.known hsub)
  | some a =>
    refine branched hτ (ha a rfl) (fun item υ hυ _ hitem => read hυ ?_) fun _ => read hτ ?_
    · cases υ.store.isNull item
      · exact pure hυ hitem.known
      · exact hr item υ hυ hitem.known
    · cases τ.store.isNull a
      · exact pure hτ (ha a rfl)
      · exact hr subject τ hτ (hon.known hsub)

theorem negation (hσ : σ.Sound w) (r : Ref) :
    Eval.Runs w settings (negation r) σ fun r τ => τ.store.Known r :=
  asking hσ fun _ _ => scalar hσ _

theorem not {operand : Step} (ho : Runs w settings operand) : Runs w settings (not operand) :=
  fun subject σ hσ hsub => (ho subject σ hσ hsub).bind fun a _ hτ _ ha =>
    branched hτ ha (fun _ _ hυ _ _ => negation hυ _) fun _ => negation hτ a

-- ---------------------------------------------------------------------------
-- Assignment
-- ---------------------------------------------------------------------------

theorem writeInto (hσ : σ.Sound w) {target : Ref} (ht : σ.store.Single target)
    (op : Option BinaryOp) {value : Ref} (hv : σ.store.Known value) :
    Eval.Runs w settings (writeInto target op value) σ fun r τ => τ.store.Known r := by
  have hrest {σ : Session} (hσ : σ.Sound w) (ht : σ.store.Single target) {value : Ref}
      (hv : σ.store.Known value) : Eval.Runs w settings (do
        Eval.change (·.set target value)
        if (← Eval.read (·.isScalar target)) then return value else return target) σ
        fun r τ => τ.store.Known r := by
    have hset : Eval.Runs w settings (Eval.change (·.set target value)) σ fun _ _ => True :=
      .change hσ (hσ.store.set ht value) (σ.store.onward_set target value) trivial
    refine hset.bind fun _ τ hτ hon _ => read hτ ?_
    split
    · exact pure hτ (hon.known hv)
    · exact pure hτ (hon.known ht.known)
  cases op with
  | none =>
    have hvalue : Eval.Runs w settings (Pure.pure value) σ fun r τ => τ.store.Known r :=
      pure hσ hv
    exact hvalue.bind fun r τ hτ hon hr => hrest hτ (hon.single ht) hr
  | some op =>
    exact (operate hσ op target value).bind fun r τ hτ hon hr => hrest hτ (hon.single ht) hr

theorem bindUnbound (hσ : σ.Sound w) (name : String) :
    Eval.Runs w settings (bindUnbound name) σ fun _ _ => True := by
  refine get hσ ?_
  split
  · exact pure hσ trivial
  · refine (scalar hσ .null).bind fun r τ hτ hon hr => ?_
    refine .modifyGet ⟨hτ.store, fun {q} hq => ?_⟩ (.refl _) trivial
    rcases Dict.mem_values_insert hq with hq | rfl
    · exact hτ.bindings hq
    · exact hr

theorem assign {target value : Step} (name : Option String) (op : Option BinaryOp)
    (ht : Runs w settings target) (hv : Runs w settings value) :
    Runs w settings (assign name target op value) := by
  have hrest : Runs w settings (fun subject => do
      let a ← target subject
      if (← Eval.read (·.isBranch a)) then
        let items ← Eval.ask (·.items? a)
        let write (item : Ref) : Eval Ref := do Step.writeInto item op (← value item)
        Eval.newBranch (← Step.collect write items)
      else Step.writeInto a op (← value subject)) := by
    intro subject σ hσ hsub
    refine (ht subject σ hσ hsub).bind fun a τ hτ hon ha => branched hτ ha ?_ fun hsingle => ?_
    · intro item υ hυ _ hitem
      refine (hv item υ hυ hitem.known).bind fun r ρ hρ hon' hr => ?_
      exact writeInto hρ (hon'.single hitem) op hr
    · refine (hv subject τ hτ (hon.known hsub)).bind fun r ρ hρ hon' hr => ?_
      exact writeInto hρ (hon'.single hsingle) op hr
  intro subject σ hσ hsub
  cases name with
  | none => exact hrest subject σ hσ hsub
  | some name =>
    exact (bindUnbound hσ name).bind fun _ τ hτ hon _ => hrest subject τ hτ (hon.known hsub)

-- ---------------------------------------------------------------------------
-- Building values
-- ---------------------------------------------------------------------------

/-- What is gathered, if all that is taken from a result of the store has the property and keeps
it. -/
theorem gather {take : Store → Ref → Except ValueError (List Ref)} {P : Store → Ref → Prop}
    (htake : ∀ s r items, s.Sound w → s.Known r → take s r = .ok items →
      ∀ c ∈ items, P s c) (hP : ∀ s t c, s.Onward t → P s c → P t c) {steps : List Step}
    (hs : ∀ f ∈ steps, Runs w settings f) (hσ : σ.Sound w) {subject : Ref}
    (hsub : σ.store.Known subject) :
    Eval.Runs w settings (gather take steps subject) σ fun rs τ => ∀ c ∈
      rs, P τ.store c := by
  induction steps generalizing σ with
  | nil => exact pure hσ fun _ hc => absurd hc List.not_mem_nil
  | cons f rest ih =>
    refine (hs f List.mem_cons_self subject σ hσ hsub).bind fun result τ hτ hon hresult => ?_
    refine asking hτ fun taken htaken => ?_
    have hrest := ih (fun g hg => hs g (List.mem_cons_of_mem _ hg)) hτ (hon.known hsub)
    refine hrest.bind fun rs υ hυ hon' hrs => pure hυ fun c hc => ?_
    rcases List.mem_append.1 hc with hc | hc
    · exact hP _ _ c hon' (htake _ _ _ hτ.store hresult htaken c hc)
    · exact hrs c hc

theorem contribution_fit (s : Store) (r : Ref) (items : List Ref) (hs : s.Sound w) (hr : s.Known r)
    (h : s.contribution r = .ok items) : ∀ c ∈ items, s.Single c ∧ s.Fit w c := by
  unfold Store.contribution at h
  split at h
  · obtain ⟨parts, hparts, h⟩ := Except.bind_eq_ok_iff.1 h
    obtain ⟨contributed, hcon, h⟩ := Except.bind_eq_ok_iff.1 h
    cases h
    have hpart {p : Ref} (hp : p ∈ parts) : s.Fit w p :=
      hs.part_fit (Store.part_of_items? hparts hp)
    intro c hc
    obtain ⟨taken, htaken, hc⟩ := List.mem_flatten.1 hc
    obtain ⟨p, hp, hflat⟩ := exists_of_mem_mapM hcon htaken
    exact ⟨hs.flatten_single (hpart hp).known hflat c hc, hs.flatten_fit (hpart hp) hflat c hc⟩
  · rename_i hspread
    have hfit : s.Fit w r := ⟨hr, fun _ => Bool.eq_false_iff.2 hspread⟩
    exact fun c hc => ⟨hs.flatten_single hr h c hc, hs.flatten_fit hfit h c hc⟩

theorem passed_known (s : Store) (r : Ref) (items : List Ref) (hs : s.Sound w) (hr : s.Known r)
    (h : s.passed r = .ok items) : ∀ c ∈ items, s.Known c := by
  unfold Store.passed at h
  split at h
  · exact fun c hc => hs.part_known (Store.part_of_items? h hc)
  · cases h
    exact fun c hc => List.mem_singleton.1 hc ▸ hr

theorem gatherContributions {steps : List Step} (hs : ∀ f ∈ steps, Runs w settings f)
    (hσ : σ.Sound w) {subject : Ref} (hsub : σ.store.Known subject) :
    Eval.Runs w settings (Step.gather Store.contribution steps subject) σ fun rs τ =>
      ∀ c ∈ rs, τ.store.Single c ∧ τ.store.Fit w c :=
  gather contribution_fit (fun _ _ _ hon h => ⟨hon.single h.1, hon.fit h.2⟩) hs hσ hsub

theorem array {items : List Step} (hs : ∀ f ∈ items, Runs w settings f) :
    Runs w settings (array items) := fun _ _ hσ hsub =>
  (gatherContributions hs hσ hsub).bind fun _ _ hτ _ hrs => new hτ fun c hc => (hrs c hc).2

theorem branch {results : List Step} (hs : ∀ f ∈ results, Runs w settings f) :
    Runs w settings (branch results) := by
  intro subject σ hσ hsub
  unfold Step.branch
  split
  · refine read hσ ?_
    split
    · rename_i items hd
      refine asking hσ fun contributed hcon => newBranch hσ fun c hc => ?_
      obtain ⟨taken, htaken, hc⟩ := List.mem_flatten.1 hc
      obtain ⟨p, hp, hflat⟩ := exists_of_mem_mapM hcon htaken
      exact hσ.store.flatten_single (hσ.store.item_fit hd p hp).known hflat c hc
    · exact throw hσ fun _ => rfl
  · exact (gatherContributions hs hσ hsub).bind fun _ _ hτ _ hrs =>
      newBranch hτ fun c hc => (hrs c hc).1

theorem call {arguments : List Step} (name : String)
    (hf : ∀ f, settings.functions.find? name = some f → f.Keeps w)
    (hs : ∀ f ∈ arguments, Runs w settings f) : Runs w settings (call name arguments) := by
  intro subject σ hσ hsub
  refine readSettings hσ ?_ fun _ => rfl
  split
  · exact throw hσ fun _ => rfl
  · rename_i f hfind
    have hargs := gather passed_known (fun _ _ _ hon h => hon.known h) hs hσ hsub
    refine hargs.bind fun args τ hτ hon hargs => Eval.Runs.rethrow ?_ fun _ => rfl
    refine Eval.Runs.act (Q := fun r s => s.Known r) hτ ?_
    unfold Function.call
    split
    · exact hf f hfind τ.store subject args hτ.store (hon.known hsub) hargs
    · exact .throw hτ.store rfl

def ofEntry (w : Concern) (settings : Settings) : Entry → Prop
  | .spread source => ∀ f ∈ source, Runs w settings f
  | .pair key value => Runs w settings key ∧ Runs w settings value

theorem addTo {entry : Entry} (he : ofEntry w settings entry) (hσ : σ.Sound w) {object : Dict Ref}
    (hobject : ∀ c ∈ object.values, σ.store.Fit w c) {subject : Ref}
    (hsub : σ.store.Known subject) :
    Eval.Runs w settings (entry.addTo object subject) σ fun d τ => ∀ c ∈
      d.values, τ.store.Fit w c := by
  cases entry with
  | spread source =>
    have hinsert {source : Ref} {σ : Session} (hσ : σ.Sound w)
        (hobject : ∀ c ∈ object.values, σ.store.Fit w c) : Eval.Runs w settings (do
          let entries ← Eval.ask (·.entries? source)
          return object.insertAll entries.entries) σ fun d τ => ∀ c ∈
            d.values, τ.store.Fit w c := by
      refine asking hσ fun entries hentries => pure hσ fun c hc => ?_
      rcases Dict.mem_values_insertAll hc with hc | hc
      · exact hobject c hc
      · exact hσ.store.part_fit (Store.part_of_entries? hentries hc)
    cases source with
    | none =>
      have hsubject : Eval.Runs w settings (Pure.pure subject) σ fun _ _ => True :=
        pure hσ trivial
      exact hsubject.bind fun _ τ hτ hon _ => hinsert hτ fun c hc => hon.fit (hobject c hc)
    | some f =>
      exact (he f rfl subject σ hσ hsub).bind fun _ τ hτ hon _ =>
        hinsert hτ fun c hc => hon.fit (hobject c hc)
  | pair key value =>
    refine (he.1 subject σ hσ hsub).bind fun k τ hτ hon _ => read hτ ?_
    split
    · refine (he.2 subject τ hτ (hon.known hsub)).bind fun v υ hυ hon' hv => ?_
      refine (clearSpread hυ hv).bind fun _ ρ hρ hon'' hv => pure hρ fun c hc => ?_
      rcases Dict.mem_values_insert hc with hc | rfl
      · exact ((hon.trans hon').trans hon'').fit (hobject c hc)
      · exact hv
    · exact throw hτ fun _ => rfl

theorem addEntries {entries : List Entry} (he : ∀ e ∈ entries, ofEntry w settings e)
    (hσ : σ.Sound w) {object : Dict Ref} (hobject : ∀ c ∈ object.values, σ.store.Fit w c)
    {subject : Ref} (hsub : σ.store.Known subject) :
    Eval.Runs w settings (addEntries object entries subject) σ fun d τ =>
      ∀ c ∈ d.values, τ.store.Fit w c := by
  induction entries generalizing object σ with
  | nil => exact pure hσ hobject
  | cons entry rest ih =>
    refine (addTo (he entry List.mem_cons_self) hσ hobject hsub).bind fun d τ hτ hon hd => ?_
    exact ih (fun e h => he e (List.mem_cons_of_mem _ h)) hτ hd (hon.known hsub)

theorem object {entries : List Entry} (he : ∀ e ∈ entries, ofEntry w settings e) :
    Runs w settings (object entries) := fun _ _ hσ hsub =>
  (addEntries he hσ (fun _ hc => absurd hc List.not_mem_nil) hsub).bind fun _ _ hτ _ hd =>
    new hτ hd

theorem conditional {condition consequence : Step} {alternative : Option Step}
    (hc : Runs w settings condition) (ht : Runs w settings consequence)
    (ha : ∀ f ∈ alternative, Runs w settings f) :
    Runs w settings (conditional condition consequence alternative) := by
  intro subject σ hσ hsub
  refine (hc subject σ hσ hsub).bind fun c τ hτ hon _ => asking hτ fun holds _ => ?_
  cases holds
  · cases alternative with
    | none => exact scalar hτ .null
    | some f => exact ha f rfl subject τ hτ (hon.known hsub)
  · exact ht subject τ hτ (hon.known hsub)

-- ---------------------------------------------------------------------------
-- Going over collections
-- ---------------------------------------------------------------------------

theorem elements (hσ : σ.Sound w) (iteration : Iteration) (subject : Ref) :
    Eval.Runs w settings (elements iteration subject) σ fun rs τ => ∀ c ∈
      rs, τ.store.Fit w c := by
  refine read hσ ?_
  split
  · rename_i items hd
    exact pure hσ (hσ.store.item_fit hd)
  · exact throw hσ fun _ => rfl

theorem results {f : Step} (hf : Runs w settings f) (hσ : σ.Sound w) {refs : List Ref}
    (hrefs : ∀ r ∈ refs, σ.store.Known r) :
    Eval.Runs w settings (results f refs) σ fun rs τ => ∀ c ∈ rs, τ.store.Fit w c := by
  induction refs generalizing σ with
  | nil => exact pure hσ fun _ hc => absurd hc List.not_mem_nil
  | cons r rest ih =>
    refine (hf r σ hσ (hrefs r List.mem_cons_self)).bind fun result τ hτ hon hresult => ?_
    refine (clearSpread hτ hresult).bind fun _ υ hυ hon' hfit => ?_
    have hrest := ih hυ fun r hr => (hon.trans hon').known (hrefs r (List.mem_cons_of_mem _ hr))
    refine hrest.bind fun rs ρ hρ hon'' hrs => pure hρ fun c hc => ?_
    rcases List.mem_cons.1 hc with rfl | hc
    · exact hon''.fit hfit
    · exact hrs c hc

theorem map {f : Step} (hf : Runs w settings f) : Runs w settings (map f) := fun subject _ hσ _ =>
  (elements hσ .map subject).bind fun _ _ hτ _ hitems =>
    (results hf hτ fun r hr => (hitems r hr).known).bind fun _ _ hυ _ hrs => new hυ hrs

theorem runAll {f : Step} (hf : Runs w settings f) (hσ : σ.Sound w) {refs : List Ref}
    (hrefs : ∀ r ∈ refs, σ.store.Known r) :
    Eval.Runs w settings (runAll f refs) σ fun _ _ => True := by
  induction refs generalizing σ with
  | nil => exact pure hσ trivial
  | cons r rest ih =>
    refine (hf r σ hσ (hrefs r List.mem_cons_self)).bind fun _ τ hτ hon _ => ?_
    exact ih hτ fun r hr => hon.known (hrefs r (List.mem_cons_of_mem _ hr))

theorem each {f : Step} (hf : Runs w settings f) : Runs w settings (each f) := by
  intro subject σ hσ hsub
  refine (elements hσ .each subject).bind fun items τ hτ hon hitems => ?_
  refine (runAll hf hτ fun r hr => (hitems r hr).known).bind fun _ υ hυ hon' _ => ?_
  exact pure hυ ((hon.trans hon').known hsub)

theorem kept {f : Step} (hf : Runs w settings f) (hσ : σ.Sound w) {refs : List Ref}
    (hrefs : ∀ r ∈ refs, σ.store.Fit w r) :
    Eval.Runs w settings (kept f refs) σ fun rs τ => ∀ c ∈ rs, τ.store.Fit w c := by
  induction refs generalizing σ with
  | nil => exact pure hσ fun _ hc => absurd hc List.not_mem_nil
  | cons r rest ih =>
    have hr := hrefs r List.mem_cons_self
    refine (hf r σ hσ hr.known).bind fun result τ hτ hon _ => asking hτ fun holds _ => ?_
    have hrest := ih hτ fun r hr => hon.fit (hrefs r (List.mem_cons_of_mem _ hr))
    cases holds
    · exact hrest
    · refine hrest.bind fun rs υ hυ hon' hrs => pure hυ fun c hc => ?_
      rcases List.mem_cons.1 hc with rfl | hc
      · exact hon'.fit (hon.fit hr)
      · exact hrs c hc

theorem filter {f : Step} (hf : Runs w settings f) : Runs w settings (filter f) :=
  fun subject _ hσ _ =>
  (elements hσ .filter subject).bind fun _ _ hτ _ hitems =>
    (kept hf hτ hitems).bind fun _ _ hυ _ hrs => new hυ hrs

theorem sortKeys {f : Step} (hf : Runs w settings f) (hσ : σ.Sound w) {refs : List Ref}
    (hrefs : ∀ r ∈ refs, σ.store.Known r) :
    Eval.Runs w settings (sortKeys f refs) σ fun _ _ => True := by
  induction refs generalizing σ with
  | nil => exact pure hσ trivial
  | cons r rest ih =>
    refine (hf r σ hσ (hrefs r List.mem_cons_self)).bind fun _ τ hτ hon _ => ?_
    have hrest := ih hτ fun r hr => hon.known (hrefs r (List.mem_cons_of_mem _ hr))
    exact hrest.bind fun _ υ hυ _ _ => pure hυ trivial

theorem sortBy {key : Step} (hk : Runs w settings key) (direction : SortDirection) :
    Runs w settings (sortBy key direction) := by
  intro subject σ hσ _
  refine (elements hσ .sort subject).bind fun items τ hτ _ hitems => ?_
  refine (sortKeys hk hτ fun r hr => (hitems r hr).known).bind fun keys υ hυ hon _ => read hυ ?_
  refine noteSort hυ (new hυ fun c hc => hon.fit (hitems c ?_))
  obtain ⟨⟨t, _⟩, hpair, rfl⟩ := List.mem_map.1 hc
  exact (List.of_mem_zip ((perm_sortStable _).mem_iff.1 hpair)).2

theorem descend (target : DescentTarget) : Runs w settings (descend target) :=
  fun _ _ hσ _ => read hσ (new hσ fun _ hc => hσ.store.found_fit hc)

end Runs

end Step

end DocSelect
