import LintBroker.Proofs.Life
import LintBroker.Proofs.Quiet
import LintBroker.Proofs.Tasks

/-!
# Transitions

What a session can do, one small step at a time. A *change* is what an action of a host, a listener
or a provider comes down to; it leaves the lives of dispatches alone. The other transitions are the
loop's and those of the one task that runs: each says at what stage of its dispatch the task takes
it, and a dispatch whose end is announced says why no more was surfaced.
-/
namespace LintBroker

namespace Entry
variable {e : Entry}

/-- Whether an entry tells of a question, a line, a subscription or a delivery: of nothing that is
looked up again. -/
def isPlain : Entry → Bool
  | .subscribed _ | .unsubscribed _ | .delivered .. | .heard .. => true
  | e => e.isQuiet

theorem isPlain_of_isQuiet (h : e.isQuiet = true) : e.isPlain = true := by
  cases e <;> first | exact h | rfl

theorem mark?_of_isPlain (h : e.isPlain = true) : e.mark? = none := by
  cases e <;> first | rfl | cases h

end Entry

namespace Dispatch

/-- An answer is contained: it is there, or its failure is one that a provider may have. -/
def Contained (r : Except Failure Value) : Prop :=
  ∀ f, r = .error f → f.isCancellation = true ∨ f.isOrdinary = true

theorem contained_ok (v : Value) : Contained (.ok v) := fun _ h => by cases h

theorem contained_error_iff {f : Failure} :
    Contained (.error f) ↔ f.isCancellation = true ∨ f.isOrdinary = true :=
  ⟨fun h => h f rfl, fun h _ hg => Except.error.inj hg ▸ h⟩

/-- Whether an answer is contained can be seen from it. -/
instance (r : Except Failure Value) : Decidable (Contained r) :=
  match r with
  | .ok v => .isTrue (contained_ok v)
  | .error _ => decidable_of_iff _ contained_error_iff.symm

end Dispatch

namespace Session

def Runs (s : Session) (t : TaskId) (job : Job) : Prop :=
  ∃ x, s.loop.tasks[t]? = some x ∧ x.phase = .running ∧ x.job = job

def Idle (s : Session) : Prop :=
  ∀ (t : TaskId) (x : Task), s.loop.tasks[t]? = some x → x.phase ≠ .running

def HasEnded (s : Session) (t : TaskId) : Prop :=
  ∃ x e, s.loop.tasks[t]? = some x ∧ x.phase = .ended e

def IsCancelling (s : Session) (t : TaskId) : Prop :=
  ∃ x, s.loop.tasks[t]? = some x ∧ x.cancelling = true

/-- No dispatch of the lint has a task. -/
def Barren (s : Session) (t : TaskId) : Prop :=
  ∀ (u : TaskId) (x : Task) (d : Dispatch), s.loop.tasks[u]? = some x → x.job = .dispatch d →
    d.round ≠ t

def providerOf (s : Session) (id : RecordId) : Option ProviderId :=
  s.registry.records[id]?.map Record.provider

theorem providerOf_eq {s : Session} {id : RecordId} {x : Record Nat}
    (h : s.registry.records[id]? = some x) : s.providerOf id = some x.provider := by
  rw [providerOf, h, Option.map_some]

def InForce (s : Session) (id : RecordId) : Prop :=
  ∃ x, s.registry.records[id]? = some x ∧ x.activated = true

/-- Messages for the dispatch may be surfaced: its registration is in force, and the messages are
about the project or their surface still exists. -/
def Surfaces (s : Session) (d : Dispatch) (p : ProviderId) : Prop :=
  s.InForce d.record ∧
    (s.scopeOf p = .ok .project ∨
      s.scopeOf p = .ok .file ∧
        ∃ v, s.answerOf d.context.surface .destroyed = .ok v ∧ v.truthy = false)

/-- Why nothing more comes of an answer on which this is the verdict. One that was not presented
failed in a way that is not contained, or its provider has no name to report it by; news is not
surfaced if it is a failure, or if messages may not be surfaced. -/
def Leaves (s : Session) (t : TaskId) (d : Dispatch) (p : ProviderId) (r : Except Failure Value) :
    Verdict → Prop
  | .unheard => (∃ f, s.nameOf p = .error f) ∨ ∃ f, r = .error f ∧
      if f.isCancellation = true then s.IsCancelling t else f.isOrdinary = false
  | .stale => True
  | .news => ∀ v, r = .ok v → ¬ s.Surfaces d p
  | .surfaced => True

/-- A dispatch's task may end: the dispatch never entered, or its end was announced, or its provider
has no scope to announce the end with. -/
def MayEnd (s : Session) (d : Dispatch) (p : ProviderId) : Prop :=
  s.Stands d.key .begun ∨ (∃ r v, s.Stands d.key (.closed r v)) ∨
    ∃ r v f, s.Stands d.key (.answered r v) ∧ s.scopeOf p = .error f

/-- What an action comes down to. -/
inductive Change (s : Session) : Session → Prop
  | note {e : Entry} (h : e.isPlain = true) : Change s (s.noted e)
  | settings (x : Option Setting.Store) : Change s { s with settings := x }
  | host (h : Host) (surfaces : h.surfaces = s.host.surfaces)
      (providers : h.providers = s.host.providers) (calls : h.calls = s.host.calls) :
      Change s (s.onHost fun _ => h)
  | reshape {p : ProviderId} {x : Provider} (a : Attributes)
      (h : s.host.providers.get? p = some x) :
      Change s ((s.onHost fun h =>
        { h with providers := h.providers.put p { x with attributes := a } }).noted (.reshaped p a))
  | alter {id : SurfaceId} {x : Surface} (q : Surface.Question) (v : Value)
      (h : s.host.surfaces.get? id = some x) :
      Change s ((s.onHost fun h =>
        { h with surfaces := h.surfaces.put id (x.change q v) }).noted (.altered id q v))
  | bus (b : Bus) : Change s (s.onRegistry fun r => { r with bus := b })
  | register {p : ProviderId} (c : Contract) (usable : s.registry.disposed = false)
      (new : s.registry.find? p = none) :
      Change s ((s.onRegistry fun r => r.insert p c).noted
        (.registered s.registry.records.size p))
  | remove {p : ProviderId} {id : RecordId} (h : s.registry.find? p = some id) :
      Change s ((s.onRegistry fun r => r.remove p).noted (.removed id p))
  | dispose : Change s ((s.onRegistry Registry.dispose).noted .disposed)
  | spawn (name : Option String) (c : EditContext) :
      Change s (s.onLoop fun l => l.spawn name (.lint c))
  | settle (r : RequestId) (e : Settlement) : Change s (s.onLoop fun l => l.settle r e)
  | cancel (t : TaskId) : Change s (s.onLoop fun l => l.cancel t)

/-- One small step of a session. -/
inductive Step (s : Session) : Session → Prop
  | change {s' : Session} (h : s.Change s') : Step s s'
  | pop {r : Ready} {rest : List Ready} (h : s.loop.ready = r :: rest) :
      Step s (s.onLoop fun l => { l with ready := rest })
  | hear (parent member : TaskId) : Step s (s.onLoop fun l => l.memberEnded parent member)
  | wake {t : TaskId} (idle : s.Idle) (h : ¬ s.HasEnded t) : Step s (s.onLoop fun l => l.wake t)
  | opens {t : TaskId} {c : EditContext} {id : RecordId} {x : Record Nat}
      (runs : s.Runs t (.lint c)) (h : s.registry.records[id]? = some x)
      (inForce : x.activated = true) :
      Step s ((s.onRegistry fun r =>
        r.changeRecord id fun x => { x with counters := x.counters.next }).noted
          (.dispatched ⟨t, id, x.counters.latest + 1, c⟩))
  | begins {d : Dispatch} {p : ProviderId} {scope : Scope}
      (runs : s.Runs d.round (.lint d.context)) (known : .dispatched d ∈ s.history)
      (stage : s.Stands d.key .opened) (hp : s.providerOf d.record = some p)
      (hs : s.scopeOf p = .ok scope) :
      Step s (s.noted (.emitted d (.begin p (d.context.pathIn scope))))
  | gathers {t : TaskId} {c : EditContext} {ds : List Dispatch} (runs : s.Runs t (.lint c))
      (barren : s.Barren t) (distinct : (ds.map Dispatch.key).Nodup)
      (h : ∀ d ∈ ds, d.round = t ∧ .dispatched d ∈ s.history ∧ s.Stands d.key .begun) :
      Step s (s.onLoop fun l => l.gather t ds)
  | enters {t : TaskId} {d : Dispatch} (runs : s.Runs t (.dispatch d))
      (stage : s.Stands d.key .begun) : Step s (s.noted (.entered d))
  | invokes {t : TaskId} {d : Dispatch} {p : ProviderId} (calls : Table ProviderId Nat)
      (runs : s.Runs t (.dispatch d)) (stage : s.Stands d.key .entered)
      (hp : s.providerOf d.record = some p) :
      Step s ((s.onHost fun h => { h with calls }).noted (.invoked d p))
  | requests {t : TaskId} {d : Dispatch} (p : ProviderId) (runs : s.Runs t (.dispatch d))
      (stage : s.Stands d.key .entered) : Step s (s.onLoop fun l => l.openRequest p t)
  | pauses {t : TaskId} {d : Dispatch} (next : Except Failure Unit → Reply)
      (runs : s.Runs t (.dispatch d)) (stage : s.Stands d.key .entered) :
      Step s (s.onLoop fun l => l.pause t next)
  | awaits {t : TaskId} {d : Dispatch} (r : RequestId) (next : Except Failure Value → Reply)
      (runs : s.Runs t (.dispatch d)) (stage : s.Stands d.key .entered) :
      Step s (s.onLoop fun l => l.await t r next)
  | answers {t : TaskId} {d : Dispatch} (r : Except Failure Value) (runs : s.Runs t (.dispatch d))
      (stage : s.Stands d.key .entered) : Step s (s.noted (.answered d r))
  | accepts {t : TaskId} {d : Dispatch} {r : Except Failure Value} {x : Record Nat}
      (runs : s.Runs t (.dispatch d)) (stage : s.Stands d.key (.answered r .unheard))
      (contained : Dispatch.Contained r) (h : s.registry.records[d.record]? = some x) :
      Step s ((s.onRegistry fun reg => reg.changeRecord d.record fun x =>
        { x with counters := x.counters.receive d.generation }).noted
          (.accepted d (x.counters.isNews d.generation)))
  | surfaces {t : TaskId} {d : Dispatch} {p : ProviderId} {v : Value} {x : Record Nat}
      {scope : Scope} (runs : s.Runs t (.dispatch d))
      (stage : s.Stands d.key (.answered (.ok v) .news)) (hp : s.providerOf d.record = some p)
      (may : s.Surfaces d p) (h : s.registry.records[d.record]? = some x)
      (newest : x.counters.lastReceived = d.generation) (hs : s.scopeOf p = .ok scope) :
      Step s (s.noted (.emitted d (.update p (.list (Dispatch.messagesOf v))
        (d.context.bufferIn scope))))
  | closes {t : TaskId} {d : Dispatch} {p : ProviderId} {r : Except Failure Value} {v : Verdict}
      {scope : Scope} (runs : s.Runs t (.dispatch d)) (stage : s.Stands d.key (.answered r v))
      (hp : s.providerOf d.record = some p) (leaves : s.Leaves t d p r v)
      (hs : s.scopeOf p = .ok scope) :
      Step s (s.noted (.emitted d (.finish p (d.context.pathIn scope))))
  | ends {t : TaskId} {job : Job} (e : Ending) (runs : s.Runs t job)
      (may : ∀ d, job = .dispatch d → ∃ p, s.providerOf d.record = some p ∧ s.MayEnd d p) :
      Step s (s.onLoop fun l => l.finish t e)

abbrev Changes : Session → Session → Prop := Relation.ReflTransGen Change

abbrev Path : Session → Session → Prop := Relation.ReflTransGen Step

instance : IsPreorder Session Changes where
  refl _ := .refl
  trans _ _ _ := .trans

theorem Changes.path {s s' : Session} (h : Changes s s') : Path s s' :=
  Relation.ReflTransGen.mono (fun _ _ => .change) _ _ h

/-- A quiet computation makes changes alone. -/
theorem Quiet.changes {s s' : Session} (h : Quiet s s') : Changes s s' := by
  obtain ⟨settings, ⟨es⟩, hq, rfl⟩ := h
  have noted : ∀ s : Session, Changes s { s with journal := s.journal ++ es.toArray } := by
    induction es with
    | nil => exact fun s => by simpa using Relation.ReflTransGen.refl
    | cons e es ih =>
      intro s
      have first : Change s (s.noted e) := .note (Entry.isPlain_of_isQuiet (hq e (by simp)))
      have rest := ih (fun e he => hq e (by simp_all)) (s.noted e)
      refine .head first ?_
      simpa [Session.noted] using rest
  exact (noted s).tail (.settings settings)

end Session
end LintBroker
