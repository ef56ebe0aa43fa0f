import LintBroker.Proofs.Configuration
import LintBroker.Proofs.Habits
import LintBroker.Proofs.Suitability

/-!
# What hosts promise

A host keeps its promises in a run if no provider is changed once it has been registered, its matcher
and the surfaces of its lints answer, its listeners and providers fail in no ways but those that are
theirs, and nobody is asked to end. Then no round fails: every provider that is registered can be read
whenever the registry reads it, and nothing else that a round does is left to fail.
-/
namespace LintBroker
open Session Act

namespace Session
variable {s s' : Session}

/-- Every registration was made of a provider that kept the contract, and that still does unless its
attributes have been changed since. -/
def Vouched (s : Session) : Prop :=
  ∀ (id : RecordId) (x : Record Nat), s.registry.records[id]? = some x →
    ∃ J₁ J₂, s.history = J₁ ++ .registered id x.provider :: J₂ ∧
      ((∀ a, .reshaped x.provider a ∉ J₂) →
        ∃ a, s.attributesOf x.provider = .ok a ∧ a.validate x.contract = .ok ())

/-- Nothing more is registered, and what is done is written down if it changes attributes. -/
theorem Vouched.next {K : List Entry} (h : s.Vouched) (history : s'.history = s.history ++ K)
    (records : ∀ (id : RecordId) (y : Record Nat), s'.registry.records[id]? = some y →
      ∃ x, s.registry.records[id]? = some x ∧ y.provider = x.provider ∧ y.contract = x.contract)
    (attributes : ∀ p, (∀ a, .reshaped p a ∉ K) → s'.attributesOf p = s.attributesOf p) :
    s'.Vouched := by
  intro id y hy
  obtain ⟨x, hx, provider, contract⟩ := records id y hy
  obtain ⟨J₁, J₂, hJ, valid⟩ := h id x hx
  refine ⟨J₁, J₂ ++ K, by rw [history, hJ, provider, List.append_assoc]; rfl, fun kept => ?_⟩
  rw [provider, contract, attributes _ fun a ha =>
    kept a (provider ▸ List.mem_append_right _ ha)]
  exact valid fun a ha => kept a (provider ▸ List.mem_append_left _ ha)

theorem Stroke.vouched (h : Stroke s s') (vouched : s.Vouched) : s'.Vouched := by
  have same (id : RecordId) (y : Record Nat) (hy : s.registry.records[id]? = some y) :
      ∃ x, s.registry.records[id]? = some x ∧ y.provider = x.provider ∧ y.contract = x.contract :=
    ⟨y, hy, rfl, rfl⟩
  have kept (change : s.Change s') (unregistered : ∀ id p, s'.history ≠ s.history ++ [.registered id p])
      (id : RecordId) (y : Record Nat) (hy : s'.registry.records[id]? = some y) :
      ∃ x, s.registry.records[id]? = some x ∧ y.provider = x.provider ∧ y.contract = x.contract := by
    rcases change.record hy with ⟨x, hx, becomes, _⟩ | ⟨_, _, registered⟩
    · exact ⟨x, hx, becomes.provider, becomes.contract⟩
    · exact absurd registered (unregistered id _)
  cases h with
  | quiet h =>
    obtain ⟨settings, es, _, rfl⟩ := h
    exact vouched.next (K := es.toList) Array.toList_append same fun _ _ => rfl
  | refurnish f _ => exact vouched.next (K := []) (List.append_nil _).symm same fun _ _ => rfl
  | @reshape p x a hx =>
    refine vouched.next (history_noted _ _) same fun q hq => ?_
    have other : p ≠ q := by
      rintro rfl
      exact hq a (List.mem_singleton_self _)
    exact (s.attributesOf_put _ p).trans (if_neg other)
  | alter | subscribe | unsubscribe => exact vouched.next (history_noted _ _) same fun _ _ => rfl
  | @register p a c usable new reads chosen valid =>
    intro id y hy
    rw [registry_noted, registry_onRegistry, Registry.getElem?_insert] at hy
    split at hy
    · obtain rfl := Option.some.inj hy
      subst id
      exact ⟨s.history, [], history_noted _ _, fun _ => ⟨a, reads, valid⟩⟩
    · obtain ⟨J₁, J₂, hJ, still⟩ := vouched id y hy
      refine ⟨J₁, J₂ ++ [.registered s.registry.records.size p], ?_, fun kept => ?_⟩
      · rw [history_noted, history_onRegistry, hJ, List.append_assoc]
        rfl
      · exact still fun b hb => kept b (List.mem_append_left _ hb)
  | remove hp =>
    exact vouched.next (history_noted _ _) (kept (.remove hp) (by simp)) fun _ _ => rfl
  | dispose => exact vouched.next (history_noted _ _) (kept .dispose (by simp)) fun _ _ => rfl
  | spawn | settle | cancel =>
    exact vouched.next (K := []) (List.append_nil _).symm same fun _ _ => rfl

/-- Listeners and matcher are still those of the host, and registrations are vouched for as before. -/
structure Equips (s s' : Session) : Prop where
  listeners : s'.host.listeners = s.host.listeners
  matcher : s'.host.matcher = s.host.matcher
  vouched : s.Vouched → s'.Vouched

theorem Stroke.equips (h : Stroke s s') : s.Equips s' := by
  obtain ⟨_, listeners, matcher⟩ := h.audience
  exact ⟨listeners, matcher, h.vouched⟩

/-- What leaves the host's side, the registrations and the journal alone. -/
theorem Equips.of_loop (s : Session) (l : Loop) : s.Equips { s with loop := l } :=
  ⟨rfl, rfl, fun h => h.next (K := []) (List.append_nil _).symm (fun _ y hy => ⟨y, hy, rfl, rfl⟩)
    fun _ _ => rfl⟩

theorem Equips.of_host {f : Host → Host} (listeners : (f s.host).listeners = s.host.listeners)
    (matcher : (f s.host).matcher = s.host.matcher)
    (providers : (f s.host).providers = s.host.providers) : s.Equips (s.onHost f) := by
  refine ⟨listeners, matcher, fun h => h.next (K := []) (List.append_nil _).symm
    (fun _ y hy => ⟨y, hy, rfl, rfl⟩) fun p _ => ?_⟩
  simp only [attributesOf, host_onHost, providers]

theorem Equips.noted (s : Session) (e : Entry) : s.Equips (s.noted e) :=
  ⟨rfl, rfl, fun h => h.next (history_noted _ _) (fun _ y hy => ⟨y, hy, rfl, rfl⟩) fun _ _ => rfl⟩

instance : IsPreorder Session Equips where
  refl _ := ⟨rfl, rfl, id⟩
  trans _ _ _ h h' :=
    ⟨h'.listeners.trans h.listeners, h'.matcher.trans h.matcher, h'.vouched ∘ h.vouched⟩

instance : Lasting Equips where
  stroke h := h.equips
  own _ s := .noted s _
  answered _ _ s := .noted s _
  invoked _ _ s := .noted s _
  counts s id f := by
    refine ⟨rfl, rfl, fun h => h.next (K := []) (List.append_nil _).symm (fun i y hy => ?_)
      fun _ _ => rfl⟩
    rw [registry_onRegistry, Registry.getElem?_changeRecord] at hy
    split at hy
    · obtain ⟨x, hx, rfl⟩ := Option.map_eq_some_iff.mp hy
      exact ⟨x, hx, rfl, rfl⟩
    · exact ⟨y, hy, rfl, rfl⟩
  calls _ _ := .of_host rfl rfl rfl
  work _ := .of_loop _ _
  emit := keepsTo_emit (fun _ _ => Stroke.equips) (fun e s => .noted s e)
    fun _ _ => .of_host rfl rfl rfl
  pop _ := .of_loop _ _
  hear _ _ _ := .of_loop _ _

variable {start last : Session}

/-- A moment of a run: the way leads there from the start, what has been written so far is a beginning
of what the run writes, and the listeners are the host's. -/
structure Moment (start last u : Session) : Prop where
  path : start.opening.Path u
  history : u.history <+: last.history
  listeners : u.host.listeners = start.host.listeners

/-- What a host promises of a run, from its start to its end. -/
structure Promises (start last : Session) : Prop where
  /-- Once a provider has been registered its attributes stay as they are. -/
  kept : ∀ {J₁ J₂ : List Entry} {id : RecordId} {p : ProviderId},
    last.history = J₁ ++ .registered id p :: J₂ → ∀ a, .reshaped p a ∉ J₂
  /-- The matcher answers. -/
  matcher : ∀ m, start.host.matcher = some m → ∀ scopes id, ∃ v, m.verdict scopes id = .ok v
  /-- A listener fails in ordinary ways alone. -/
  listeners : ∀ u, start.Moment last u → ∀ handling d l n f,
    ((Act.call handling d l n).run u).1.2 = .error f → f.isOrdinary = true
  /-- A provider answers, or fails in a way that is its to fail. -/
  answers : ∀ d r, .answered d r ∈ last.history → Dispatch.Contained r
  /-- The surfaces of lints answer. -/
  surfaces : ∀ (t : TaskId) (x : Task) (c : EditContext), last.loop.tasks[t]? = some x →
    x.job = .lint c → ∀ q, ∃ v, start.answerOf c.surface q = .ok v
  /-- Nobody is asked to end. -/
  unasked : ∀ (t : TaskId) (x : Task), last.loop.tasks[t]? = some x → x.cancelling = false

/-- What is known wherever a run has come to. -/
structure Underway (start u : Session) : Prop where
  path : start.opening.Path u
  equips : start.opening.Equips u

theorem vouched_opening (s : Session) : s.opening.Vouched := fun id x hx => by simp [opening] at hx

namespace Underway
variable {u v : Session}

theorem moment (h : start.Underway u) (hp : u.history <+: last.history) : start.Moment last u :=
  ⟨h.path, hp, h.equips.listeners⟩

theorem next (h : start.Underway u) (path : u.Path v) (equips : u.Equips v) : start.Underway v :=
  ⟨h.path.trans path, IsTrans.trans _ _ _ h.equips equips⟩

theorem quiet (h : start.Underway u) (quiet : Quiet u v) : start.Underway v :=
  h.next quiet.changes.path (Tenor.stroke (.quiet quiet))

/-- The provider of a registration can be read. -/
theorem reads (h : start.Underway u) (o : start.Promises last) (hp : u.history <+: last.history)
    {id : RecordId} {x : Record Nat} (hx : u.registry.records[id]? = some x) :
    ∃ a name scope scopes runs, u.attributesOf x.provider = .ok a ∧
      a.Reads x.contract name scope scopes runs := by
  obtain ⟨J₁, J₂, hJ, valid⟩ := h.equips.vouched start.vouched_opening id x hx
  obtain ⟨K, hK⟩ := hp
  have later : last.history = J₁ ++ .registered id x.provider :: (J₂ ++ K) := by
    rw [← hK, hJ, List.append_assoc]
    rfl
  obtain ⟨a, ha, hv⟩ := valid fun a ha => o.kept later a (List.mem_append_left _ ha)
  obtain ⟨name, scope, scopes, runs, reads⟩ := Attributes.reads_of_validate hv
  exact ⟨a, name, scope, scopes, runs, ha, reads⟩

end Underway

/-- A surface that answers at the start goes on answering. -/
theorem Underway.answers {u : Session} (h : start.Underway u) {id : SurfaceId} {q : Surface.Question}
    (answers : ∃ v, start.answerOf id q = .ok v) : ∃ v, u.answerOf id q = .ok v := by
  obtain ⟨J, hJ⟩ := h.path.history_prefix
  exact h.path.answerOf hJ (P := fun r => ∃ v, r = .ok v) answers fun v _ => ⟨v, rfl⟩

/-- A computation comes to a value, unless it wrote what the run does not write. -/
def Fares (last : Session) {α : Type} (r : Except Failure α × Session) : Prop :=
  r.2.history <+: last.history → ∃ a, r.1 = .ok a

namespace Fares
variable {α β : Type} {u v : Session}

theorem ok (a : α) (u : Session) : Fares last ((.ok a, u) : Except Failure α × Session) :=
  fun _ => ⟨a, rfl⟩

/-- On the way to where a computation leads the run has written what it has written there. -/
theorem of_path {r : Except Failure α × Session} (path : u.Path r.2)
    (h : u.history <+: last.history → Fares last r) : Fares last r := fun hp => by
  obtain ⟨J, hJ⟩ := path.history_prefix
  exact h (.trans ⟨J, hJ.symm⟩ hp) hp

theorem bind {m : Act α} {f : α → Act β} (h : Fares last (m.exec u))
    (go : ∀ a v, m.exec u = (.ok a, v) → Fares last ((f a).exec v)) :
    Fares last ((m >>= f).exec u) := by
  refine exec_bind_elim (fun e v he => ?_) go
  intro hp
  obtain ⟨a, ha⟩ := h (he ▸ hp)
  rw [he] at ha
  cases ha

end Fares

/-! ### Emissions -/

theorem fares_emit (o : start.Promises last) {handling : Option Failure} {d : Dispatch} {n : Notice}
    {u : Session} (h : start.Underway (u.noted (.emitted d n))) :
    Fares last ((emit handling d n).exec u) := by
  have calls (l : ListenerId) (n : Notice) (v : Session) (hv : start.Underway v) :
      start.Underway ((call handling d l n).run v).2 :=
    hv.next (changes_call handling d l n v).path (keepsTo_call (fun _ _ => Stroke.equips)
      (fun e s => Equips.noted s e) (fun _ _ => Equips.of_host rfl rfl rfl) handling d l n v)
  have reports (l : ListenerId) (f : Failure) : KeepsTo Quiet (reportListener n.kind l f) :=
    .bind (quiet_reportFault _ _) fun _ => .pure _
  have delivers (audience : List ListenerId) (n' : Notice) (v : Session) (hv : start.Underway v) :
      Fares last ((deliverAll (call handling d) (reportListener n.kind) audience n').run v) := by
    induction audience generalizing n' v with
    | nil => exact .ok _ v
    | cons l rest ih =>
      have path : v.Path ((deliverAll (call handling d) (reportListener n.kind) (l :: rest) n').run
          v).2 := (keepsTo_deliverAll (changes_call handling d)
        (fun l f => (reports l f).mono fun _ _ => Quiet.changes) (l :: rest) n' v).path
      refine .of_path path fun hp => ?_
      have next := calls l n' v hv
      have ordinary := o.listeners v (hv.moment hp) handling d l n'
      generalize he : (call handling d l n').run v = x at next ordinary
      obtain ⟨⟨n'', r⟩, v'⟩ := x
      rw [run_deliverAll_cons he]
      cases r with
      | ok _ => exact ih n'' v' next
      | error f =>
        simp only [ordinary f rfl, if_true]
        exact ih n'' _ (next.quiet (reports l f v'))
  exact delivers _ n _ h

end Session

/-! ### Rounds -/

namespace Round
variable {start last u : Session} {t : TaskId} {context : EditContext} {id : RecordId} {x : Record Nat}

theorem exec_askMatcher_ok (o : start.Promises last) (h : start.Underway u) {v : Value}
    {scopes : List Value} (list : v.sequence? = some scopes) {id : SurfaceId}
    (grammar : ∃ g, start.answerOf id .grammar = .ok g) :
    ∃ w, ((askMatcher v id).exec u).1 = .ok w := by
  have grammars := exec_matchGrammar_ok list (h.answers grammar)
  unfold askMatcher
  rw [exec_bind_ok exec_get, h.equips.matcher]
  cases hm : start.opening.host.matcher with
  | none => exact grammars
  | some m =>
    dsimp only
    split
    · exact o.matcher m hm v id
    · exact grammars

theorem fares_open (o : start.Promises last) (c : u.Coherent) (runs : u.Runs t (.lint context))
    (h : start.Underway u) (hx : u.registry.records[id]? = some x) (active : x.activated = true)
    {scope : Scope} (hs : u.scopeOf x.provider = .ok scope) :
    Fares last ((do
      let d ← openDispatch t id context
      let notice ← beginNotice x.provider context
      Act.emit none d notice
      return some d : Act (Option Dispatch)).exec u) := by
  rw [exec_bind_ok (exec_openDispatch hx)]
  let d : Dispatch := ⟨t, id, x.counters.latest + 1, context⟩
  let counted := u.onRegistry fun r =>
    r.changeRecord id fun x => { x with counters := x.counters.next }
  let opened := counted.noted (.dispatched d)
  let n : Notice := .begin x.provider (context.pathIn scope)
  have hs' : opened.scopeOf x.provider = .ok scope := hs
  have begun : (beginNotice x.provider context).exec opened = (.ok n, opened) := by
    rw [exec_beginNotice, hs']
    rfl
  have hp : opened.providerOf d.record = some x.provider := by
    simp [opened, counted, d, providerOf, Registry.getElem?_changeRecord, hx]
  have begins : Step opened (opened.noted (.emitted d n)) :=
    .begins (runs.keeps (.of_tasks_eq rfl)) (by simp [opened])
      (Stands.noted (x := .unopened) (c.unopened hx) rfl rfl) hp hs'
  have equips : u.Equips (opened.noted (.emitted d n)) :=
    IsTrans.trans _ _ _ (Tenor.counts u id Counters.next)
      (IsTrans.trans _ _ _ (Equips.noted counted _) (Equips.noted opened _))
  have underway := h.next (.tail (.single (.opens runs hx active)) begins) equips
  rw [exec_bind_ok begun]
  exact .bind (fares_emit o underway) fun _ _ _ => .ok _ _

theorem fares_consider (o : start.Promises last) (c : u.Coherent) (runs : u.Runs t (.lint context))
    (h : start.Underway u) (hx : u.registry.records[id]? = some x)
    (grammar : ∃ g, start.answerOf context.surface .grammar = .ok g) (disabled : List Value) :
    Fares last ((consider t context disabled id).exec u) := by
  refine .of_path (considered c runs disabled id).meanwhile.path fun hp => ?_
  obtain ⟨a, name, scope, scopes, _, ha, reads⟩ := h.reads o hp hx
  have found : (Broker.record id).exec u = (.ok x, u) := by simp [Broker.record, exec_bind, hx]
  have named : (Broker.nameOf x.provider).exec u = (.ok name, u) := by
    rw [Broker.exec_nameOf, nameOf, ha]
    exact congrArg (·, u) reads.name
  unfold consider
  rw [exec_bind_ok found]
  cases active : x.activated with
  | false => exact .ok _ _
  | true =>
    simp only [Bool.not_true, Bool.false_eq_true, if_false]
    rw [exec_bind_ok named]
    split
    · exact .ok _ _
    · obtain ⟨v, hv⟩ : ∃ v, ((Gate.shouldTrigger x context).exec u).1 = .ok v :=
        exec_shouldTrigger_ok ha reads fun _ list => exec_askMatcher_ok o h list grammar
      have quiet : Quiet u ((Gate.shouldTrigger x context).exec u).2 :=
        Gate.quiet_shouldTrigger x context u
      have about : u.scopeOf x.provider = .ok scope := by
        rw [scopeOf, ha]
        exact reads.scope
      rw [exec_bind_ok (Prod.ext hv rfl)]
      split
      · exact .ok _ _
      · exact fares_open o (c.path quiet.changes.path) (runs.keeps quiet.changes.loop)
          (h.quiet quiet) (quiet.registry ▸ hx) active (quiet.scopeOf _ ▸ about)

theorem fares_considerAll (o : start.Promises last) (c : u.Coherent)
    (runs : u.Runs t (.lint context)) (h : start.Underway u)
    (grammar : ∃ g, start.answerOf context.surface .grammar = .ok g) (disabled : List Value)
    (ids : List RecordId) (made : ∀ id ∈ ids, ∃ x, u.registry.records[id]? = some x) :
    Fares last ((considerAll t context disabled ids).exec u) := by
  induction ids generalizing u with
  | nil => exact .ok _ u
  | cons id ids ih =>
    obtain ⟨x, hx⟩ := made id List.mem_cons_self
    refine .bind (fares_consider o c runs h hx grammar disabled) fun chosen v he => ?_
    have way := (considered c runs disabled id).meanwhile
    have equips : u.Equips ((consider t context disabled id).exec u).2 :=
      habit_consider t context disabled id u
    rw [he] at way equips
    have rest : ∀ id ∈ ids, ∃ x, v.registry.records[id]? = some x := fun id hi => by
      obtain ⟨x, hx⟩ := made id (List.mem_cons_of_mem _ hi)
      obtain ⟨y, hy, _⟩ := way.path.record hx
      exact ⟨y, hy⟩
    exact .bind (ih (c.path way.path) (runs.keeps way.loop) (h.next way.path equips) rest)
      fun _ _ _ => .ok _ _

/-- A lint that starts comes to a round, or to none, if it can use the settings. -/
theorem fares_start (o : start.Promises last) (c : u.Coherent) (runs : u.Runs t (.lint context))
    (h : start.Underway u) (orderly : u.registry.Orderly) (configured : u.Configured context.filePath)
    (surface : ∀ q, ∃ v, start.answerOf context.surface q = .ok v) :
    Fares last ((Round.start t context).exec u) := by
  unfold Round.start
  rw [exec_bind_ok exec_get]
  split
  · exact .ok _ u
  · obtain ⟨_, u₁, he₁, still₁⟩ := yields_ensureSettings configured.lack_eq_none
    rw [exec_bind_ok he₁]
    obtain ⟨linted, u₂, he₂, still₂⟩ := Gate.yields_shouldLint (configured.unmoved still₁)
      ((h.quiet still₁.quiet).answers (surface .pendingPreview))
    rw [exec_bind_ok he₂]
    have still := IsTrans.trans _ _ _ still₁ still₂
    split
    · exact .ok _ u₂
    · obtain ⟨disabled, u₃, he₃, still₃⟩ := yields_disabledNames (configured.unmoved still)
      have quiet := (IsTrans.trans _ _ _ still still₃).quiet
      rw [exec_bind_ok he₃, exec_bind_ok exec_get]
      refine .bind (fares_considerAll o (c.path quiet.changes.path) (runs.keeps quiet.changes.loop)
        (h.quiet quiet) (surface .grammar) disabled _ fun id hi => ?_) fun _ _ _ => .ok _ _
      rw [quiet.registry] at hi ⊢
      exact orderly.made hi

end Round

/-! ### Dispatches -/

namespace Dispatch
variable {start last u : Session} {t : TaskId} {d : Dispatch} {p : ProviderId} {x : Record Nat}
  {name : String} {scope : Scope} {r : Except Failure Value}

theorem exec_shouldSurface_ok (hx : u.registry.records[d.record]? = some x)
    (hs : u.scopeOf p = .ok scope)
    (destroyed : ∃ v, u.answerOf d.context.surface .destroyed = .ok v) :
    ∃ b, ((shouldSurface d p).exec u).1 = .ok b := by
  have found : (Broker.record d.record).exec u = (.ok x, u) := by
    simp [Broker.record, exec_bind, hx]
  unfold shouldSurface
  rw [exec_bind_ok found]
  split
  · exact ⟨_, rfl⟩
  · rw [exec_bind_ok (by rw [Broker.exec_scopeOf, hs])]
    cases scope with
    | project => exact ⟨_, rfl⟩
    | file =>
      obtain ⟨v, hv⟩ := destroyed
      have asked := (exec_askSurface d.context.surface .destroyed u).trans hv
      rw [exec_bind_ok (Prod.ext asked rfl)]
      exact ⟨_, rfl⟩

theorem exec_respond_ok (hx : u.registry.records[d.record]? = some x) (hn : u.nameOf p = .ok name)
    (hs : u.scopeOf p = .ok scope) (destroyed : ∃ v, u.answerOf d.context.surface .destroyed = .ok v)
    (contained : Contained r) : ∃ n, ((respond d p false r).exec u).1 = .ok n := by
  let u₁ := u.noted (.answered d r)
  have quiet : Quiet u₁ ((contain p false r).exec u₁).2 := quiet_contain p false r u₁
  have worth : ((contain p false r).exec u₁).1 = .ok (outcomeOf r) := by
    rcases contain_cases p false r u₁ with ⟨_, _, ⟨f, unnamed⟩ | ⟨f, rfl, leaves⟩⟩ | ⟨_, ok⟩
    · cases hn.symm.trans unnamed
    · rcases contained_error_iff.mp contained with cancelled | ordinary
      · simp [cancelled] at leaves
      · split at leaves
        · cases leaves
        · simp [ordinary] at leaves
    · exact ok
  have awaits : (contain p false r).awaited.exec u₁ =
      (.ok (outcomeOf r), ((contain p false r).exec u₁).2) := by
    rw [exec_awaited, worth]
    rfl
  generalize ((contain p false r).exec u₁).2 = u₂ at quiet awaits
  have hx₂ : u₂.registry.records[d.record]? = some x := quiet.registry ▸ hx
  have accepted := exec_accept hx₂
  unfold respond
  rw [exec_bind_ok (exec_note _), exec_bind_ok awaits, exec_bind_ok accepted]
  have hx₃ : ((u₂.onRegistry fun r => r.changeRecord d.record fun x =>
      { x with counters := x.counters.receive d.generation }).noted
        (.accepted d (x.counters.isNews d.generation))).registry.records[d.record]? =
          some { x with counters := x.counters.receive d.generation } := by
    simp [Registry.getElem?_changeRecord, hx₂]
  have host : ((u₂.onRegistry fun r => r.changeRecord d.record fun x =>
      { x with counters := x.counters.receive d.generation }).noted
        (.accepted d (x.counters.isNews d.generation))).host = u.host := quiet.host
  generalize (u₂.onRegistry fun r => r.changeRecord d.record fun x =>
      { x with counters := x.counters.receive d.generation }).noted
        (.accepted d (x.counters.isNews d.generation)) = u₃ at hx₃ host
  have hn₃ : u₃.nameOf p = .ok name := by rw [← hn, nameOf, nameOf, attributesOf, attributesOf, host]
  have hs₃ : u₃.scopeOf p = .ok scope := by
    rw [← hs, scopeOf, scopeOf, attributesOf, attributesOf, host]
  have destroyed₃ : ∃ v, u₃.answerOf d.context.surface .destroyed = .ok v := by
    rw [answerOf, host]
    exact destroyed
  split
  · rw [exec_bind_ok (by rw [Broker.exec_nameOf, hn₃])]
    exact ⟨_, rfl⟩
  · cases r with
    | error f => exact ⟨_, rfl⟩
    | ok v =>
      obtain ⟨may, hm⟩ := exec_shouldSurface_ok hx₃ hs₃ destroyed₃
      have surfacing : Quiet u₃ ((shouldSurface d p).exec u₃).2 := quiet_shouldSurface d p u₃
      simp only [outcomeOf]
      rw [exec_bind_ok (Prod.ext hm rfl)]
      split
      · rw [exec_bind_ok (by rw [exec_updateNotice, surfacing.scopeOf, hs₃]; rfl)]
        exact ⟨_, rfl⟩
      · exact ⟨_, rfl⟩

/-- What is known of the session in which a dispatch deals with its answer. -/
structure Concerns (start u : Session) (t : TaskId) (d : Dispatch) (p : ProviderId) : Prop where
  underway : start.Underway u
  runs : u.Runs t (.dispatch d)
  provider : u.providerOf d.record = some p
  surface : ∀ q, ∃ v, start.answerOf d.context.surface q = .ok v

/-- The provider of the dispatch can be read. -/
theorem Concerns.reads (h : Concerns start u t d p) (o : start.Promises last)
    (hp : u.history <+: last.history) : ∃ x name scope, u.registry.records[d.record]? = some x ∧
      u.nameOf p = .ok name ∧ u.scopeOf p = .ok scope := by
  obtain ⟨x, hx, rfl⟩ := Option.map_eq_some_iff.mp h.provider
  obtain ⟨a, name, scope, scopes, _, ha, reads⟩ := h.underway.reads o hp hx
  refine ⟨x, name, scope, hx, ?_, ?_⟩
  · rw [nameOf, ha]
    exact reads.name
  · rw [scopeOf, ha]
    exact reads.scope

theorem Concerns.next {v : Session} (h : Concerns start u t d p) (path : u.Path v)
    (loop : u.loop.Keeps v.loop) (equips : u.Equips v) : Concerns start v t d p :=
  ⟨h.underway.next path equips, h.runs.keeps loop, path.providerOf h.provider, h.surface⟩

theorem fares_deliver (o : start.Promises last) (h : Concerns start u t d p)
    (stage : u.Stands d.key .entered) (contained : Contained r) :
    Fares last ((deliver d p false r).exec u) := by
  refine .of_path (delivered (r := r) h.runs stage h.provider (by simp)).path fun hp => ?_
  obtain ⟨x, name, scope, hx, hn, hs⟩ := h.reads o hp
  obtain ⟨notice, ok⟩ := exec_respond_ok hx hn hs (h.underway.answers (h.surface .destroyed)) contained
  have responded : Responded u t d p r ((respond d p false r).exec u) :=
    responded h.runs stage hx (by simp)
  have equips : u.Equips ((respond d p false r).exec u).2 := habit_respond d p false r u
  unfold deliver
  rw [exec_bind_ok (Prod.ext ok rfl)]
  generalize ((respond d p false r).exec u) = y at ok responded equips
  obtain ⟨_, u₁⟩ := y
  obtain rfl := ok
  have there := h.next responded.path responded.loop equips
  cases notice with
  | none => exact .ok _ _
  | some n =>
    obtain ⟨v, scope, y, rfl, rfl, stage, may, hscope, hy, newest⟩ := responded.notice n rfl
    have surfaces := Step.surfaces there.runs stage there.provider may hy newest hscope
    exact fares_emit o (there.underway.next (.single surfaces) (.noted _ _))

theorem fares_announceEnd (o : start.Promises last) (h : Concerns start u t d p) {v : Verdict}
    (stage : u.Stands d.key (.answered r v)) (leaves : u.Leaves t d p r v)
    (leaving : Option Failure) : Fares last ((announceEnd d p leaving).exec u) := by
  refine .of_path (announced h.runs stage h.provider leaves leaving).1 fun hp => ?_
  obtain ⟨x, name, scope, _, _, hs⟩ := h.reads o hp
  have finish := exec_during_ok leaving
    (show (Round.finishNotice p d.context).exec u =
        (.ok (.finish p (d.context.pathIn scope)), u) by
      rw [exec_finishNotice, hs]; rfl)
  unfold announceEnd
  rw [exec_bind_ok finish]
  have closes := Step.closes h.runs stage h.provider leaves hs
  exact fares_emit o (h.underway.next (.single closes) (.noted _ _))

theorem answered_of_stands {v : Verdict} (stage : u.Stands d.key (.answered r v)) :
    ∃ d', .answered d' r ∈ u.history := by
  have marked : .answered r ∈ life d.key u.history := by
    rw [stage]
    simp [Stage.marks]
  obtain ⟨e, he, d', hd, _⟩ := mem_life_iff.mp marked
  cases e with
  | answered d r' =>
    obtain ⟨rfl, h⟩ := Prod.mk.inj (Option.some.inj hd)
    obtain rfl := Mark.answered.inj h
    exact ⟨d, he⟩
  | emitted d n => cases n <;> simp [Entry.mark?, Notice.mark] at hd
  | _ => simp [Entry.mark?] at hd

/-- A dispatch that is not asked to end comes to its end. -/
theorem fares_conclude (o : start.Promises last) (h : Concerns start u t d p)
    (stage : u.Stands d.key .entered) : Fares last ((conclude d p false r).exec u) := by
  obtain ⟨path, loop, v, stage₁, leaves⟩ : Delivered u ((deliver d p false r).exec u).2 t d p r :=
    delivered h.runs stage h.provider (by simp)
  have equips : u.Equips ((deliver d p false r).exec u).2 := habit_deliver d p false r u
  have there := h.next path loop equips
  have delivers (contained : Contained r) : Fares last ((deliver d p false r).exec u) :=
    fares_deliver o h stage contained
  unfold conclude
  rw [exec_bind_ok (exec_attempt _)]
  generalize (deliver d p false r).exec u = y at *
  obtain ⟨result, u₁⟩ := y
  have last_path := (announced there.runs stage₁ there.provider leaves (failure? result)).1
  refine .bind (fares_announceEnd o there stage₁ leaves _) fun _ u₂ he hp => ?_
  rw [he] at last_path
  obtain ⟨J, hJ⟩ := last_path.history_prefix
  have hp₁ : u₁.history <+: last.history := .trans ⟨J, hJ.symm⟩ hp
  obtain ⟨d', answered⟩ := answered_of_stands stage₁
  obtain ⟨b, hb⟩ := delivers (o.answers d' r (hp₁.subset answered)) hp₁
  exact ⟨b, hb⟩

end Dispatch
end LintBroker
