import DocSelect.Eval.Calls
import DocSelect.Proofs.Ownership
import DocSelect.Proofs.Soundness.Evaluation

/-!
# Reachable sessions

A program that uses documents and an evaluator keeps names of nodes: of the documents it has read,
of results, of values it has made. An operation is one use of them, and a session is reachable if it
is what is left by operations on nodes that are there.

Every reachable session is sound, and so is every store that an operation goes through on the way.
-/
namespace DocSelect

inductive Operation where
  /-- reads a document, or makes another value -/
  | build (c : Content)
  /-- makes a node the value of a variable -/
  | bind (name : String) (value : Ref)
  | execute (selector : String) (document : Ref)
  | evaluate (e : Expr) (subject : Ref)
  | query (selector : String) (document : Ref)
  | modify (document : Ref) (selector : String) (value : Ref)

def ExecutionPasses (settings : Settings) (selector : String) (document : Ref) (σ τ : Session) :
    Prop :=
  isBlankText selector = false ∧
    ∃ e, parse selector = .ok e ∧ (e.step document).Passes settings σ τ

namespace Operation

/-- The nodes that an operation is given are there. -/
def Known (s : Store) : Operation → Prop
  | build _ => True
  | bind _ value => s.Known value
  | execute _ document | evaluate _ document | query _ document => s.Known document
  | modify document _ value => s.Known document ∧ s.Known value

/-- The session after an operation, also where it fails. -/
def run (settings : Settings) : Operation → Session → Session
  | build c, σ => { σ with store := (σ.store.build c).2 }
  | bind name value, σ => { σ with bindings := σ.bindings.insert name value }
  | execute selector document, σ => (DocSelect.execute settings selector document σ).2
  | evaluate e subject, σ => (DocSelect.evaluate settings e subject σ).2
  | query selector document, σ =>
    { σ with store := (DocSelect.query settings selector document σ.store).2 }
  | modify document selector value, σ =>
    { σ with store := (DocSelect.modify settings document selector value σ.store).2 }

/-- The stores that an operation goes through: those that evaluation passes, and for `modify` also
those between two writes. -/
inductive Passes (settings : Settings) : Operation → Session → Store → Prop
  | build (c : Content) (σ : Session) : Passes settings (.build c) σ (σ.store.build c).2
  | execute {selector document σ τ} : ExecutionPasses settings selector document σ τ →
    Passes settings (.execute selector document) σ τ.store
  | evaluate {e subject σ τ} : (e.step subject).Passes settings σ τ →
    Passes settings (.evaluate e subject) σ τ.store
  | query {selector document σ τ} :
    ExecutionPasses settings selector document ⟨σ.store, Dict.empty⟩ τ →
    Passes settings (.query selector document) σ τ.store
  | select {document selector value σ τ} :
    ExecutionPasses settings selector document ⟨σ.store, Dict.empty⟩ τ →
    Passes settings (.modify document selector value) σ τ.store
  | write {document selector value σ selected s} (n : Nat) :
    DocSelect.query settings selector document σ.store = (.ok selected, s) →
    Passes settings (.modify document selector value) σ
      ((selected.take n).foldl (fun s r => s.set r value) s)

end Operation

inductive Session.Reachable (settings : Settings) : Session → Prop
  | empty : Reachable settings ⟨Store.empty, Dict.empty⟩
  | step {σ : Session} {op : Operation} : σ.Reachable settings → op.Known σ.store →
    (op.run settings σ).Reachable settings

variable {w : Concern} {settings : Settings} {σ : Session}

/-- A new document and the variables are there without any operation but reading and binding. -/
theorem Session.Reachable.start (settings : Settings) (document : Content)
    (vars : List (String × Content)) : (Session.start document vars).2.Reachable settings := by
  have hbuild {σ : Session} (h : σ.Reachable settings) (c : Content) :
      Session.Reachable settings { σ with store := (σ.store.build c).2 } :=
    @Reachable.step _ _ (.build c) h trivial
  refine Session.foldl_bind (fun {σ} h name c => ?_) vars (hbuild .empty document)
  have hg := σ.store.grown_build c
  exact @Reachable.step _ _ (.bind name (σ.store.build c).1) (hbuild h c)
    (hg.root_fresh (List.mem_singleton.2 rfl)).2

-- ---------------------------------------------------------------------------
-- One operation
-- ---------------------------------------------------------------------------

theorem Session.Sound.outcome (hs : settings.Keeping .soundness) (h : σ.Sound .soundness)
    (e : Expr) {subject : Ref} (hsub : σ.store.Known subject) :
    Eval.Outcome .soundness settings (e.step subject) σ fun r τ => τ.store.Known r :=
  have hall : e.all Concern.soundness.admits = true := e.all_of_forall fun _ => rfl
  (e.runs_lift hs hall subject σ h hsub).keeps settings.searchLimit fun hw => absurd hw (by decide)

theorem eq_ok_of_mapError {ε ε' α : Type} {x : Except ε α} {f : ε → ε'} {a : α}
    (h : x.mapError f = .ok a) : x = .ok a := by
  cases x <;> cases h
  rfl

structure SoundExecution (settings : Settings) (selector : String) (document : Ref) (σ : Session) :
    Prop where
  passed {τ : Session} : ExecutionPasses settings selector document σ τ → τ.Sound .soundness
  left : (execute settings selector document σ).2.Sound .soundness
  onward : σ.store.Onward (execute settings selector document σ).2.store
  result {r : Ref} : (execute settings selector document σ).1 = .ok r →
    (execute settings selector document σ).2.store.Known r

theorem SoundExecution.of_eq {selector : String} {document : Ref} {result : Except SelectError Ref}
    {τ : Session} (h : execute settings selector document σ = (result, τ))
    (passed : ∀ υ, ExecutionPasses settings selector document σ υ → υ.Sound .soundness)
    (left : τ.Sound .soundness) (onward : σ.store.Onward τ.store)
    (hresult : ∀ r, result = .ok r → τ.store.Known r) :
    SoundExecution settings selector document σ := by
  refine ⟨fun {υ} => passed υ, ?_, ?_, fun {r} => ?_⟩ <;> rw [h]
  · exact left
  · exact onward
  · exact hresult r

theorem Session.Sound.execute (hs : settings.Keeping .soundness) (h : σ.Sound .soundness)
    (selector : String) {document : Ref} (hdoc : σ.store.Known document) :
    SoundExecution settings selector document σ := by
  rcases hb : isBlankText selector with _ | _
  · rcases hp : parse selector with err | e
    · have hrun : DocSelect.execute settings selector document σ = (.error (.parse err), σ) := by
        simp [DocSelect.execute, hb, hp]
      refine .of_eq hrun ?_ h (.refl _) fun r hr => by cases hr
      · rintro υ ⟨-, e, he, -⟩
        rw [hp] at he
        cases he
    · obtain ⟨hpassed, hleft, hon, hresult⟩ := h.outcome hs e hdoc
      refine .of_eq (by simp only [DocSelect.execute, hb, hp]; rfl) ?_ hleft hon fun r hr => ?_
      · rintro υ ⟨-, e', he, hυ⟩
        rw [hp] at he
        cases he
        exact hpassed υ hυ
      · exact hresult r (eq_ok_of_mapError hr)
  · have hrun : DocSelect.execute settings selector document σ = (.ok document, σ) := by
      rw [DocSelect.execute, if_pos hb]
    refine .of_eq hrun ?_ h (.refl _) fun r hr => ?_
    · rintro υ ⟨hno, -⟩
      rw [hb] at hno
      cases hno
    · cases hr
      exact hdoc

theorem Store.Sound.withoutVariables {s : Store} (h : s.Sound w) :
    Session.Sound w ⟨s, Dict.empty⟩ := ⟨h, fun hr => absurd hr List.not_mem_nil⟩

/-- A query runs in a session without variables, and selects nodes that are no branches. -/
theorem sound_query (hs : settings.Keeping .soundness) {s t : Store} (h : s.Sound .soundness)
    {selector : String} {document : Ref} (hdoc : s.Known document)
    {result : Except SelectError (List Ref)}
    (hq : query settings selector document s = (result, t)) :
    t.Sound .soundness ∧ s.Onward t ∧
      ∀ selected, result = .ok selected → ∀ r ∈ selected, t.Single r := by
  obtain ⟨-, hleft, hon, hresult⟩ := h.withoutVariables.execute hs selector hdoc
  unfold query at hq
  dsimp only at hq
  split at hq
  · cases hq
    exact ⟨hleft.store, hon, fun _ h => by cases h⟩
  · rename_i r hr
    split at hq
    · rename_i hb
      cases hq
      refine ⟨hleft.store, hon, fun selected h q hq => ?_⟩
      exact hleft.store.element_single hb (Store.part_of_items? (eq_ok_of_mapError h) hq)
    · rename_i hb
      cases hq
      refine ⟨hleft.store, hon, fun selected h q hq => ?_⟩
      cases h
      rw [List.mem_singleton.1 hq]
      exact ⟨hresult hr, Bool.eq_false_iff.2 hb⟩

theorem sound_writes {s : Store} (h : s.Sound .soundness) {selected : List Ref}
    (hsel : ∀ r ∈ selected, s.Single r) (value : Ref) :
    (selected.foldl (fun s r => s.set r value) s).Sound .soundness ∧
      s.Onward (selected.foldl (fun s r => s.set r value) s) := by
  induction selected generalizing s with
  | nil => exact ⟨h, .refl s⟩
  | cons r rest ih =>
    have hon := s.onward_set r value
    have hrest := ih (h.set (hsel r List.mem_cons_self) value)
      fun q hq => hon.single (hsel q (List.mem_cons_of_mem _ hq))
    exact ⟨hrest.1, hon.trans hrest.2⟩

namespace Operation

theorem sound_run (hs : settings.Keeping .soundness) (h : σ.Sound .soundness) {op : Operation}
    (hop : op.Known σ.store) : (op.run settings σ).Sound .soundness := by
  cases op with
  | build c => exact h.change (Store.sound_build c h.store).1 (.of_grown (σ.store.grown_build c))
  | bind name value =>
    refine ⟨h.store, fun hr => ?_⟩
    rcases Dict.mem_values_insert hr with hr | rfl
    · exact h.bindings hr
    · exact hop
  | execute selector document => exact (h.execute hs selector hop).left
  | evaluate e subject => exact (h.outcome hs e hop).left
  | query selector document =>
    obtain ⟨hsound, hon, -⟩ := sound_query hs h.store hop rfl
    exact h.change hsound hon
  | modify document selector value =>
    rcases hq : DocSelect.query settings selector document σ.store with ⟨err | selected, s⟩
    · obtain ⟨hsound, hon, -⟩ := sound_query hs h.store hop.1 hq
      simp only [run, DocSelect.modify, hq]
      exact h.change hsound hon
    · obtain ⟨hsound, hon, hsel⟩ := sound_query hs h.store hop.1 hq
      obtain ⟨hwritten, hon'⟩ := sound_writes hsound (hsel selected rfl) value
      simp only [run, DocSelect.modify, hq]
      exact h.change hwritten (hon.trans hon')

theorem sound_of_passes (hs : settings.Keeping .soundness) (h : σ.Sound .soundness)
    {op : Operation} (hop : op.Known σ.store) {s : Store} (hp : op.Passes settings σ s) :
    s.Sound .soundness := by
  cases hp with
  | build c => exact (Store.sound_build c h.store).1
  | execute hp => exact ((h.execute hs _ hop).passed hp).store
  | evaluate hp => exact ((h.outcome hs _ hop).passed _ hp).store
  | query hp => exact ((h.store.withoutVariables.execute hs _ hop).passed hp).store
  | select hp => exact ((h.store.withoutVariables.execute hs _ hop.1).passed hp).store
  | write n hq =>
    obtain ⟨hsound, -, hsel⟩ := sound_query hs h.store hop.1 hq
    exact (sound_writes hsound (fun r hr => hsel _ rfl r (List.mem_of_mem_take hr)) _).1

end Operation

-- ---------------------------------------------------------------------------
-- All operations
-- ---------------------------------------------------------------------------

theorem Store.Sound.empty (w : Concern) : Store.empty.Sound w := by
  have hpart {r c : Ref} (h : Store.empty.Part c r) : False := Nat.not_lt_zero _ h.lt
  refine ⟨fun h => (hpart h).elim, fun r => ⟨r, fun c hc => (hpart hc).elim⟩, fun r hb => ?_,
    fun _ r c hc => (hpart hc).elim⟩
  exact absurd (known_of_isBranch hb) (Nat.not_lt_zero _)

theorem Session.Reachable.sound (hs : settings.Keeping .soundness) (h : σ.Reachable settings) :
    σ.Sound .soundness := by
  induction h with
  | empty => exact (Store.Sound.empty _).withoutVariables
  | step _ hop ih => exact Operation.sound_run hs ih hop

/-- In every reachable session, and in every store that an operation goes through from there, a
branch is a slice and no element of it is a branch. -/
theorem branches_flat (files : FileSystem) (environment : Environment) (limit : Nat) {σ : Session}
    (hσ : σ.Reachable ⟨Registry.builtins files, environment, limit⟩) :
    σ.store.Flat ∧ ∀ op : Operation, op.Known σ.store → ∀ s,
      op.Passes ⟨Registry.builtins files, environment, limit⟩ σ s → s.Flat := by
  have hs := Settings.keeping_builtins .soundness files environment limit
  have hsound := hσ.sound hs
  exact ⟨hsound.store.flat, fun op hop s hp =>
    (Operation.sound_of_passes hs hsound hop hp).flat⟩

/-- Taking the elements of a document one by one passes a store with a branch. -/
theorem branches_flat_elements :
    let settings : Settings := ⟨Registry.builtins FileSystem.bare, fun _ => none, 10⟩
    let start := Session.start (.slice [.int 1, .int 2]) []
    let op : Operation := .evaluate (.branch []) start.1
    start.2.Reachable settings ∧ op.Known start.2.store ∧
      ∃ s, op.Passes settings start.2 s ∧ s.isBranch ⟨3⟩ = true ∧ s.Flat := by
  intro settings start op
  let σ := start.2
  have hσ : σ.Reachable settings := .start settings _ _
  have hop : op.Known σ.store := by
    show 2 < 3
    decide
  let τ : Session :=
    { σ with store := (σ.store.new (.slice [⟨0⟩, ⟨1⟩])).2.markBranch ⟨3⟩ }
  have hpasses : op.Passes settings σ τ.store := by
    suffices h : (Expr.step (.branch []) start.1).Passes settings σ τ from .evaluate h
    refine (Eval.moments_bind ..).2 (.inr ⟨false, σ, rfl, ?_⟩)
    refine (Eval.moments_tryCatch ..).2 (.inl ?_)
    refine (Eval.moments_bind ..).2 (.inr ⟨.slice [⟨0⟩, ⟨1⟩], σ, rfl, ?_⟩)
    refine (Eval.moments_bind ..).2 (.inr ⟨[[⟨0⟩], [⟨1⟩]], σ, rfl, ?_⟩)
    refine (Eval.moments_bind ..).2 (.inr ⟨⟨3⟩, _, rfl, ?_⟩)
    exact (Eval.moments_bind ..).2 (.inl ((Eval.moments_change ..).2 rfl))
  exact ⟨hσ, hop, τ.store, hpasses, by decide, (branches_flat _ _ _ hσ).2 op hop _ hpasses⟩

end DocSelect
