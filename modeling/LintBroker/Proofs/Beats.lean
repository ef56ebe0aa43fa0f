import LintBroker.Proofs.Speech
import LintBroker.Proofs.Walk

/-!
# Beats

A move of a run is one beat. The host acts, in silence; or a lint hears of the end of a member of its
round; or one task has its turn: it goes on from where it stood, and then gives way, waits, gathers
its round or ends. If it ends with a value, what it said was heeded, a dispatch has announced its end,
and a lint that tells of success had no round to wait for, or its round went well.
-/
namespace LintBroker
namespace Session
open Act
variable {s s' s₁ : Session} {t : TaskId} {x : Task} {K : List Entry}

/-- Whom a task speaks for in its turn: a lint for the dispatches of its round, a dispatch for
itself. -/
def SpeaksFor (t : TaskId) : Job → Dispatch → Prop
  | .lint _, d => d.round = t
  | .dispatch d', d => d = d'

/-- What is known of a turn that ends with a value. -/
structure EndsWell (s : Session) (x : Task) (K : List Entry) (b : Bool) : Prop where
  heeded : s.Heeded K
  closing : ∀ d, x.job = .dispatch d → ∃ n, .emitted d n ∈ K ∧ n.mark = .finished
  success : b = true → ∀ c, x.job = .lint c → opened K = [] ∧
    (x.phase = .fresh ∨ ∃ g, x.phase = .gathering g ∧ g.outcome = some (.ok ()))

/-- How a task leaves its turn, which began in one session and in which this was written. -/
inductive TurnEnds (s : Session) (t : TaskId) (x : Task) (s₁ : Session) (K : List Entry) :
    Session → Prop
  | ends (e : Ending) (well : ∀ b, e = .value b → s.EndsWell x K b) :
      TurnEnds s t x s₁ K (s₁.onLoop fun l => l.finish t e)
  | pauses {d : Dispatch} (job : x.job = .dispatch d) (silent : ∀ e ∈ K, e.speaker? = none)
      (next : Except Failure Unit → Reply) :
      TurnEnds s t x s₁ K (s₁.onLoop fun l => l.pause t next)
  | awaits {d : Dispatch} (job : x.job = .dispatch d) (silent : ∀ e ∈ K, e.speaker? = none)
      (r : RequestId) (next : Except Failure Value → Reply) :
      TurnEnds s t x s₁ K (s₁.onLoop fun l => l.await t r next)
  | gathers {c : EditContext} {ds : List Dispatch} (job : x.job = .lint c) (phase : x.phase = .fresh)
      (heeded : s.Heeded K) (round : opened K = ds)
      (listed : (ds.map Dispatch.record).Sublist s.registry.active.values)
      (began : (begunIn K).map Prod.fst = ds) :
      TurnEnds s t x s₁ K (s₁.onLoop fun l => l.gather t ds)

/-- A task has its turn: it comes to a session from which it leaves. -/
def TakesPart (s : Session) (t : TaskId) (x : Task) (K : List Entry) (s' : Session) : Prop :=
  ∃ s₁, Account (SpeaksFor t x.job) s s₁ K ∧ TurnEnds s t x s₁ K s'

theorem endingOf_value {c b : Bool} {r : Except Failure Bool} (h : endingOf c r = .value b) :
    r = .ok b := by
  cases r with
  | ok b' =>
    cases c with
    | true => cases h
    | false => exact congrArg _ (Ending.value.inj h)
  | error f => cases hf : f.isCancellation <;> simp [endingOf, hf] at h

theorem mapError_eq_ok {α : Type} {r : Except Failure α} {g : Failure → Failure} {a : α}
    (h : r.mapError g = .ok a) : r = .ok a := by
  cases r with
  | ok b => exact congrArg _ (Except.ok.inj h)
  | error f => cases h

theorem map_eq_ok {α β : Type} {r : Except Failure α} {g : α → β} {b : β} (h : r.map g = .ok b) :
    ∃ a, r = .ok a ∧ g a = b := by
  cases r with
  | ok a => exact ⟨a, rfl, Except.ok.inj h⟩
  | error f => cases h

theorem TakesPart.of_finish {r : Except Failure Bool} (account : Account (SpeaksFor t x.job) s s₁ K)
    (well : ∀ b, r = .ok b → s.EndsWell x K b) : s.TakesPart t x K ((finish t r).run s₁).2 :=
  ⟨s₁, account, .ends _ fun b hb => well b (mapError_eq_ok (endingOf_value hb))⟩

theorem account_nothing {P : Dispatch → Prop} (s : Session) : Account P s s [] :=
  (Stretch.refl s).account_of_silent (by simp)

section dispatch
variable {d : Dispatch} {p : ProviderId}

theorem takesPart_follow (hd : x.job = .dispatch d) (first : Silent s s₁) (g : Progress) :
    ∃ K, s.TakesPart t x K ((follow d p t g).run s₁).2 := by
  obtain ⟨K, hs, hK⟩ := first
  cases g with
  | answered r =>
    let cancelling := ((s₁.loop.tasks[t]?).map Task.cancelling).getD false
    obtain ⟨K', account, ok⟩ := Dispatch.utters_conclude d p cancelling r s₁
    have own : Account (SpeaksFor t x.job) s ((Dispatch.conclude d p cancelling r).exec s₁).2
        (K ++ K') := by
      rw [hd]
      exact (hs.account_of_silent hK).trans account
    refine ⟨K ++ K', .of_finish own fun b hb => ?_⟩
    obtain ⟨u, hu, _⟩ := map_eq_ok hb
    obtain ⟨heeded, n, hn, finish⟩ := ok u hu
    refine ⟨(heeded_of_silent hK).trans hs heeded, fun d' hd' => ⟨n, ?_, finish⟩, ?_⟩
    · obtain rfl := Job.dispatch.inj (hd.symm.trans hd')
      exact List.mem_append_right _ (List.mem_filter.mp hn).1
    · intro _ c hc
      rw [hd] at hc
      cases hc
  | paused next => exact ⟨K, s₁, hs.account_of_silent hK, .pauses hd hK next⟩
  | awaiting r next => exact ⟨K, s₁, hs.account_of_silent hK, .awaits hd hK r next⟩

theorem exec_provider_silent (d : Dispatch) (s : Session) :
    ((Dispatch.provider d).exec s).2 = s := by
  simp only [Dispatch.provider, Broker.record, exec_bind, exec_get, exec_expect]
  cases s.registry.records[d.record]? <;> rfl

theorem takesPart_failed (first : Silent s s₁) (f : Failure) :
    ∃ K, s.TakesPart t x K ((finish t (.error f)).run s₁).2 := by
  obtain ⟨K, hs, hK⟩ := first
  exact ⟨K, .of_finish (hs.account_of_silent hK) nofun⟩

theorem takesPart_resumeDispatch (hd : x.job = .dispatch d) (reply : Reply) :
    ∃ K, s.TakesPart t x K ((resumeDispatch d t reply).run s).2 := by
  have same := exec_provider_silent d s
  rw [resumeDispatch, run_bind_exec]
  cases he : ((Dispatch.provider d).exec s).1 with
  | error f =>
    rw [same]
    exact takesPart_failed (refl s) f
  | ok p =>
    rw [same]
    exact takesPart_follow hd (Dispatch.silent_advance reply s) _

theorem takesPart_startDispatch (hd : x.job = .dispatch d) :
    ∃ K, s.TakesPart t x K ((startDispatch d t).run s).2 := by
  have same := exec_provider_silent d s
  rw [startDispatch, run_bind_exec]
  cases he : ((Dispatch.provider d).exec s).1 with
  | error f =>
    rw [same]
    exact takesPart_failed (refl s) f
  | ok p =>
    rw [same]
    have announced : Silent s ((Dispatch.announce d p).exec s).2 := Dispatch.silent_announce d p s
    show ∃ K, s.TakesPart t x K (((Dispatch.announce d p).run >>= _ : StateM Session Unit).run s).2
    rw [run_bind_exec]
    cases ((Dispatch.announce d p).exec s).1 with
    | error f => exact takesPart_failed announced f
    | ok _ =>
      exact takesPart_follow hd (IsTrans.trans _ _ _ announced (Dispatch.silent_start d p t _)) _

end dispatch

theorem takesPart_startLint {c : EditContext} (hj : x.job = .lint c) (hp : x.phase = .fresh) :
    ∃ K, s.TakesPart t x K ((startLint c t).run s).2 := by
  obtain ⟨K, account, ok⟩ := Round.utters_start t c s
  have own : Account (SpeaksFor t x.job) s ((Round.start t c).exec s).2 K := by
    rw [hj]
    exact account
  rw [run_startLint]
  refine ⟨K, ?_⟩
  cases hr : ((Round.start t c).exec s).1 with
  | error f => exact .of_finish own nofun
  | ok round =>
    obtain ⟨heeded, post⟩ := ok round hr
    have well (b : Bool) (round : b = true → opened K = []) : s.EndsWell x K b :=
      ⟨heeded, fun d hd => by simp [hj] at hd, fun hb _ _ => ⟨round hb, .inl hp⟩⟩
    cases round with
    | none => exact .of_finish own fun b hb => well b fun h => by simp [h] at hb
    | some ds =>
      obtain ⟨⟨hopened, began⟩, listed⟩ := post ds rfl
      rw [opened_speech] at hopened
      rw [begunIn_speech] at began
      cases ds with
      | nil => exact .of_finish own fun b _ => well b fun _ => hopened
      | cons d ds => exact ⟨_, own, .gathers hj hp heeded hopened listed began⟩

/-- One beat of a session, and what is written in it. -/
inductive Beat (s : Session) : List Entry → Session → Prop
  | acts {K : List Entry} {s' : Session} (way : Stretch s s' K) (silent : ∀ e ∈ K, e.speaker? = none) :
      Beat s K s'
  | skips {t : TaskId} {rest : List Ready} (hr : s.loop.ready = .step t :: rest) :
      Beat s [] (s.onLoop fun l => { l with ready := rest })
  | hears {t u : TaskId} {rest : List Ready} (hr : s.loop.ready = .memberEnded t u :: rest) :
      Beat s [] ((s.onLoop fun l => { l with ready := rest }).onLoop fun l => l.memberEnded t u)
  | turns {t : TaskId} {rest : List Ready} {x : Task} {K : List Entry} {s' : Session}
      (hr : s.loop.ready = .step t :: rest) (hx : s.loop.tasks[t]? = some x)
      (before : ∀ e, x.phase ≠ .ended e) (part : (s.woken t).TakesPart t x K s') : Beat s K s'

theorem arrival_eq_ok {α : Type} {pending : Bool} {r : Except Failure α} {a : α}
    (h : arrival pending r = .ok a) : r = .ok a := by
  cases pending with
  | false => exact h
  | true =>
    cases r with
    | ok b => cases h
    | error f => cases hf : f.isCancellation <;> simp [arrival, hf] at h

theorem Coherent.beat_tick (c : s.Coherent) : ∃ K, s.Beat K s.tick := by
  cases hr : s.loop.ready with
  | nil =>
    refine ⟨[], ?_⟩
    have : s.tick = s := by simp only [tick, hr]
    rw [this]
    exact .acts (.refl s) (by simp)
  | cons r rest =>
    cases r with
    | memberEnded t u =>
      refine ⟨[], ?_⟩
      have : s.tick = (s.onLoop fun l => { l with ready := rest }).onLoop fun l =>
          l.memberEnded t u := by simp only [tick, hr]
      rw [this]
      exact .hears hr
    | step t =>
      cases hx : s.loop.tasks[t]? with
      | none =>
        refine ⟨[], ?_⟩
        have : s.tick = s.onLoop fun l => { l with ready := rest } := by
          simp only [tick, hr]
          exact congrArg Prod.snd (run_step_none (s := s.onLoop fun l => { l with ready := rest }) hx)
        rw [this]
        exact .skips hr
      | some x =>
        have turn (before : ∀ e, x.phase ≠ .ended e) {s' : Session}
            (part : ∃ K, (s.woken t).TakesPart t x K s') : ∃ K, s.Beat K s' := by
          obtain ⟨K, part⟩ := part
          exact ⟨K, .turns hr hx before part⟩
        have way := resumption (s.woken t) t x
        rw [tick_step hr hx]
        generalize ((resume t x).run (s.woken t)).2 = s' at way
        cases way with
        | cancelled fresh => exact turn (by simp [fresh]) (takesPart_failed (refl _) _)
        | lint fresh job => exact turn (by simp [fresh]) (takesPart_startLint job fresh)
        | dispatch fresh job => exact turn (by simp [fresh]) (takesPart_startDispatch job)
        | paused phase job | settled phase job =>
          exact turn (by simp [phase]) (takesPart_resumeDispatch job _)
        | @decided g r phase outcome =>
          refine turn (by simp [phase]) ⟨[], .of_finish (account_nothing _) fun b hb => ?_⟩
          obtain ⟨_, ha, _⟩ := map_eq_ok hb
          have went : g.outcome = some (.ok ()) := by rw [outcome, arrival_eq_ok ha]
          exact ⟨heeded_of_silent (by simp), fun d hd => absurd phase (c.not_gathering hx hd g),
            fun _ _ _ => ⟨rfl, .inr ⟨g, phase, went⟩⟩⟩
        | idle =>
          rw [putBack_woken hr hx]
          exact ⟨[], .skips hr⟩

theorem Coherent.beat_move (c : s.Coherent) (m : Move) : ∃ K, s.Beat K (s.move m) := by
  cases m with
  | act a =>
    obtain ⟨K, way, silent⟩ := (deeds_perform a s).silent
    exact ⟨K, .acts way silent⟩
  | tick => exact c.beat_tick

theorem comes_start (s : Session) : s.opening.Comes s.opening := ⟨.refl, s.idle_opening⟩

/-- What holds at a session, and is kept by every beat of a run that led there, holds at the end of
every run from there. -/
theorem Comes.beats {s₀ : Session} {P : Session → Prop} (h : s₀.opening.Comes s) (start : P s)
    (beat : ∀ {u v : Session} {K : List Entry}, s₀.opening.Path u → u.Path v → u.Beat K v → P u → P v)
    (moves : List Move) : P (s.run moves) := by
  induction moves generalizing s with
  | nil => exact start
  | cons m moves ih =>
    have c := s₀.coherent_opening.path h.path
    have next := comes_move c h.idle m
    obtain ⟨K, one⟩ := c.beat_move m
    exact ih (next.after h.path) (beat h.path next.path one start)

end Session
end LintBroker
